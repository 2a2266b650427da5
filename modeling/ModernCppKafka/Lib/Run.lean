/-
  ModernCppKafka.Lib.Run — runs of a machine whose steps may fail.

  `step s a` is the state after action `a`, or `none` when the machine cannot take the action
  (an undefined behaviour, or an action that is not enabled).  `run` chains the steps, and
  `Along` says that a side condition holds at every step a run takes.

  The rules:
    * `run_invariant`        — what every step preserves, every run preserves;
    * `run_invariant_along`  — the same when only the steps meeting a condition preserve it;
    * `run_invariant_history` — the same for an invariant that also speaks of the actions taken;
    * `run_total`            — steps meeting the condition exist, so the run does;
    * `run_simulation`       — what one machine does step by step, a related one does as well;
    * `Along.imp`            — what a condition implies on the invariant it implies along a run;
    * `run_isSome_iff_along` — a run exists exactly when each step is as a condition says;
    * `avoids_iff_along`     — a run keeps out of bad states exactly when each step does;
    * `atEach_snoc`          — a condition on a log is checked as the log grows.
-/
import Mathlib.Data.List.Infix

namespace ModernCppKafka.Lib.Run

variable {S A : Type*} (step : S → A → Option S)

/-- The state after the actions `as`, or `none` once a step fails. -/
def run : S → List A → Option S
  | s, [] => some s
  | s, a :: as => (step s a).bind (run · as)

/-- Every step the run takes meets `ok` (of the state before it and its action). -/
def Along (ok : S → A → Prop) : S → List A → Prop
  | _, [] => True
  | s, a :: as => ok s a ∧ ∀ s', step s a = some s' → Along ok s' as

/-- With a decidable condition, `Along` is checked by running. -/
instance Along.decidable (ok : S → A → Prop) [∀ s a, Decidable (ok s a)] :
    ∀ (s : S) (as : List A), Decidable (Along step ok s as)
  | _, [] => .isTrue trivial
  | s, a :: as =>
      have : Decidable (∀ s', step s a = some s' → Along step ok s' as) :=
        match h : step s a with
        | none => .isTrue (by simp)
        | some s' =>
            have := Along.decidable ok s' as
            decidable_of_iff (Along step ok s' as) (by simp)
      inferInstanceAs (Decidable (_ ∧ _))

@[simp] theorem run_nil (s : S) : run step s [] = some s := rfl

theorem run_cons (s : S) (a : A) (as : List A) :
    run step s (a :: as) = (step s a).bind (run step · as) := rfl

theorem run_append (s : S) (as bs : List A) :
    run step s (as ++ bs) = (run step s as).bind (run step · bs) := by
  induction as generalizing s with
  | nil => rfl
  | cons a as ih =>
    rw [List.cons_append, run_cons, run_cons, Option.bind_assoc]
    exact Option.bind_congr fun s' _ => ih s'

theorem run_cons_eq_some {s t : S} {a : A} {as : List A} :
    run step s (a :: as) = some t ↔ ∃ s', step s a = some s' ∧ run step s' as = some t := by
  rw [run_cons, Option.bind_eq_some_iff]

variable {step}

/-! ## §1. The invariant rules. -/

/-- What every step preserves, every run preserves. -/
theorem run_invariant {Inv : S → Prop}
    (hstep : ∀ s a s', Inv s → step s a = some s' → Inv s') :
    ∀ {as : List A} {s t : S}, Inv s → run step s as = some t → Inv t
  | [], s, t, hs, h => by
      obtain rfl : s = t := by simpa using h
      exact hs
  | a :: as, s, t, hs, h => by
      obtain ⟨s', ha, h'⟩ := (run_cons_eq_some step).mp h
      exact run_invariant hstep (hstep s a s' hs ha) h'

/-- What every step meeting `ok` preserves, every run of such steps preserves. -/
theorem run_invariant_along {Inv : S → Prop} {ok : S → A → Prop}
    (hstep : ∀ s a s', Inv s → ok s a → step s a = some s' → Inv s') :
    ∀ {as : List A} {s t : S}, Inv s → Along step ok s as → run step s as = some t → Inv t
  | [], s, t, hs, _, h => by
      obtain rfl : s = t := by simpa using h
      exact hs
  | a :: as, s, t, hs, hok, h => by
      obtain ⟨s', ha, h'⟩ := (run_cons_eq_some step).mp h
      exact run_invariant_along hstep (hstep s a s' hs hok.1 ha) (hok.2 s' ha) h'

/-- What every step preserves of the state and the actions that led to it, every run does. -/
theorem run_invariant_history {Inv : List A → S → Prop}
    (hstep : ∀ pre s a s', Inv pre s → step s a = some s' → Inv (pre ++ [a]) s') :
    ∀ {as pre : List A} {s t : S}, Inv pre s → run step s as = some t → Inv (pre ++ as) t
  | [], pre, s, t, hs, h => by
      obtain rfl : s = t := by simpa using h
      rwa [List.append_nil]
  | a :: as, pre, s, t, hs, h => by
      obtain ⟨s', ha, h'⟩ := (run_cons_eq_some step).mp h
      have hrest : Inv (pre ++ [a] ++ as) t :=
        run_invariant_history hstep (hstep pre s a s' hs ha) h'
      rwa [List.append_assoc] at hrest

/-- Where steps meeting `ok` succeed and preserve `Inv`, runs of such steps do. -/
theorem run_total {Inv : S → Prop} {ok : S → A → Prop}
    (hstep : ∀ s a, Inv s → ok s a → ∃ s', step s a = some s' ∧ Inv s') :
    ∀ {as : List A} {s : S}, Inv s → Along step ok s as → ∃ t, run step s as = some t ∧ Inv t
  | [], s, hs, _ => ⟨s, rfl, hs⟩
  | a :: as, s, hs, hok => by
      obtain ⟨s', ha, hs'⟩ := hstep s a hs hok.1
      obtain ⟨t, ht, hinv⟩ := run_total hstep hs' (hok.2 s' ha)
      exact ⟨t, (run_cons_eq_some step).mpr ⟨s', ha, ht⟩, hinv⟩

/-- A relation kept by the steps of two machines is kept by their runs. -/
theorem run_simulation {T : Type*} {step' : T → A → Option T} {R : S → T → Prop}
    (hstep : ∀ s t a s', R s t → step s a = some s' → ∃ t', step' t a = some t' ∧ R s' t') :
    ∀ {as : List A} {s s' : S} {t : T}, R s t → run step s as = some s' →
      ∃ t', run step' t as = some t' ∧ R s' t'
  | [], s, s', t, hst, h => by
      obtain rfl : s = s' := by simpa using h
      exact ⟨t, rfl, hst⟩
  | a :: as, s, s', t, hst, h => by
      obtain ⟨s₁, ha, hrest⟩ := (run_cons_eq_some step).mp h
      obtain ⟨t₁, ha', hst₁⟩ := hstep s t a s₁ hst ha
      obtain ⟨t', hrest', hst'⟩ := run_simulation hstep hst₁ hrest
      exact ⟨t', (run_cons_eq_some step').mpr ⟨t₁, ha', hrest'⟩, hst'⟩

/-! ## §2. Conditions along a run. -/

/-- A condition on the actions alone. -/
theorem Along.of_forall {ok : A → Prop} :
    ∀ {as : List A} {s : S}, (∀ a ∈ as, ok a) → Along step (fun _ a => ok a) s as
  | [], _, _ => trivial
  | a :: _, _, h => ⟨h a List.mem_cons_self, fun _ _ =>
      Along.of_forall fun b hb => h b (List.mem_cons_of_mem a hb)⟩

theorem Along.append {ok : S → A → Prop} {as bs : List A} {s : S} :
    Along step ok s (as ++ bs) ↔
      Along step ok s as ∧ ∀ t, run step s as = some t → Along step ok t bs := by
  induction as generalizing s with
  | nil => simp [Along]
  | cons a as ih =>
    simp only [List.cons_append, Along, ih, run_cons, and_assoc, Option.bind_eq_some_iff]
    grind

/-- A condition that follows from another where `Inv` holds follows along a run whose steps
meeting the other keep `Inv`. -/
theorem Along.imp {Inv : S → Prop} {ok ok' : S → A → Prop} {as : List A}
    (hok : ∀ s, ∀ a ∈ as, Inv s → ok s a → ok' s a)
    (hinv : ∀ s, ∀ a ∈ as, ∀ s', Inv s → ok s a → step s a = some s' → Inv s') {s : S}
    (hs : Inv s) (h : Along step ok s as) : Along step ok' s as := by
  induction as generalizing s with
  | nil => trivial
  | cons a as ih =>
    obtain ⟨ha, hrest⟩ := h
    refine ⟨hok s a List.mem_cons_self hs ha, fun s' hstep => ?_⟩
    exact ih (fun s b hb => hok s b (List.mem_cons_of_mem a hb))
      (fun s b hb => hinv s b (List.mem_cons_of_mem a hb))
      (hinv s a List.mem_cons_self s' hs ha hstep) (hrest s' hstep)

/-- Two conditions that agree where `Inv` holds agree along a run whose good steps keep `Inv`. -/
theorem along_congr {Inv : S → Prop} {ok ok' : S → A → Prop} {as : List A}
    (hok : ∀ s, ∀ a ∈ as, Inv s → (ok s a ↔ ok' s a))
    (hinv : ∀ s, ∀ a ∈ as, ∀ s', Inv s → ok s a → step s a = some s' → Inv s') {s : S}
    (hs : Inv s) : Along step ok s as ↔ Along step ok' s as := by
  refine ⟨Along.imp (fun s a ha hs => (hok s a ha hs).mp) hinv hs,
    Along.imp (fun s a ha hs => (hok s a ha hs).mpr) (fun s a ha s' hs h => ?_) hs⟩
  exact hinv s a ha s' hs ((hok s a ha hs).mpr h)

/-- A run succeeds exactly when each of its steps does, as told by a condition `ok` that
decides, in the states `Inv` holds of, whether a step succeeds. -/
theorem run_isSome_iff_along {Inv : S → Prop} {ok : S → A → Prop}
    (hinv : ∀ s a s', Inv s → step s a = some s' → Inv s')
    (hok : ∀ s a, Inv s → ((step s a).isSome ↔ ok s a)) :
    ∀ {as : List A} {s : S}, Inv s → ((run step s as).isSome ↔ Along step ok s as)
  | [], s, _ => by simp [Along]
  | a :: as, s, hs => by
      rw [run_cons, Along]
      cases ha : step s a with
      | none =>
        have : ¬ ok s a := fun h => by simpa [ha] using (hok s a hs).mpr h
        simp [this]
      | some s' =>
        have hoka : ok s a := (hok s a hs).mp (by simp [ha])
        have ih : (run step s' as).isSome ↔ Along step ok s' as :=
          run_isSome_iff_along hinv hok (hinv s a s' hs ha)
        simpa [hoka] using ih

/-- A run keeps out of the bad states exactly when each of its steps meets the condition `ok`
that tells, in the good states `Inv` holds of, whether a step leads to a good state. -/
theorem avoids_iff_along {Inv Bad : S → Prop} {ok : S → A → Prop}
    (hinv : ∀ s a s', Inv s → step s a = some s' → Inv s')
    (hok : ∀ s a, Inv s → ¬ Bad s → ((∀ s', step s a = some s' → ¬ Bad s') ↔ ok s a)) :
    ∀ {as : List A} {s : S}, Inv s → ¬ Bad s →
      ((∀ pre, pre <+: as → ∀ t, run step s pre = some t → ¬ Bad t) ↔ Along step ok s as)
  | [], s, _, hgood => by simpa [Along] using hgood
  | a :: as, s, hs, hgood => by
      have ih (s' : S) (ha : step s a = some s') (hgood' : ¬ Bad s') :
          (∀ pre, pre <+: as → ∀ t, run step s' pre = some t → ¬ Bad t) ↔ Along step ok s' as :=
        avoids_iff_along hinv hok (hinv s a s' hs ha) hgood'
      constructor
      · intro h
        have hstep (s' : S) (ha : step s a = some s') : ¬ Bad s' :=
          h [a] (by simp) s' (by simp [run_cons, ha])
        refine ⟨(hok s a hs hgood).mp hstep, fun s' ha => (ih s' ha (hstep s' ha)).mp ?_⟩
        intro pre hpre t ht
        refine h (a :: pre) (by simpa using hpre) t ?_
        exact (run_cons_eq_some step).mpr ⟨s', ha, ht⟩
      · rintro ⟨hoka, hrest⟩ pre hpre t ht
        cases pre with
        | nil =>
          obtain rfl : s = t := by simpa using ht
          exact hgood
        | cons b pre =>
          obtain ⟨rfl, hpre'⟩ := List.cons_prefix_cons.mp hpre
          obtain ⟨s', ha, ht'⟩ := (run_cons_eq_some step).mp ht
          have hgood' : ¬ Bad s' := (hok s b hs hgood).mpr hoka s' ha
          exact (ih s' ha hgood').mpr (hrest s' ha) pre hpre' t ht'

/-! ## §3. Conditions on a log. -/

section Log

variable {E : Type*} {P : List E → E → Prop} {log : List E}

/-- Every event of the log meets `P` (of the events before it and itself). -/
def AtEach (P : List E → E → Prop) (log : List E) : Prop :=
  ∀ pre e post, log = pre ++ e :: post → P pre e

theorem atEach_nil : AtEach P [] := by
  intro pre e post h
  simp at h

theorem AtEach.of_append {more : List E} (h : AtEach P (log ++ more)) : AtEach P log := by
  rintro pre e post rfl
  exact h pre e (post ++ more) (by simp)

theorem atEach_snoc {e : E} : AtEach P (log ++ [e]) ↔ AtEach P log ∧ P log e := by
  refine ⟨fun h => ⟨h.of_append, h log e [] rfl⟩, fun h pre x post heq => ?_⟩
  rcases List.eq_nil_or_concat post with rfl | ⟨post, y, rfl⟩
  · obtain ⟨rfl, rfl⟩ : log = pre ∧ e = x := by
      simpa using List.append_inj' heq rfl
    exact h.2
  · obtain ⟨hlog, -⟩ := List.append_inj' (heq.trans (by simp : _ = (pre ++ x :: post) ++ [y])) rfl
    exact h.1 pre x post hlog

end Log

end ModernCppKafka.Lib.Run
