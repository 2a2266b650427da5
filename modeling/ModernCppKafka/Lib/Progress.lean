/-
  ModernCppKafka.Lib.Progress — a machine that gets somewhere, whatever order its steps come in.

  `ok` picks the actions that count: those of the processes at work, without the requests that
  would give them more to do.  `Completes` says that each such step brings the state closer,
  by a measure, and that one is possible until the goal is met.

  Main results:
    * `Completes.length_le` — a run of such steps is no longer than the measure allows;
    * `Completes.reaches`   — and it can be continued to the goal.
-/
import ModernCppKafka.Lib.Run

namespace ModernCppKafka.Lib.Progress

open ModernCppKafka.Lib.Run

variable {S A : Type*}

/-- `μ` falls with every step that counts, and while `Goal` is not met there is one. -/
structure Completes (step : S → A → Option S) (ok : A → Prop) (Inv Goal : S → Prop)
    (μ : S → ℕ) : Prop where
  keeps : ∀ s a s', Inv s → ok a → step s a = some s' → Inv s'
  falls : ∀ s a s', Inv s → ok a → step s a = some s' → μ s' < μ s
  moves : ∀ s, Inv s → ¬ Goal s → ∃ a s', ok a ∧ step s a = some s'

namespace Completes

variable {step : S → A → Option S} {ok : A → Prop} {Inv Goal : S → Prop} {μ : S → ℕ}

theorem inv_of_run (h : Completes step ok Inv Goal μ) {as : List A} {s t : S} (hs : Inv s)
    (hok : ∀ a ∈ as, ok a) (hrun : run step s as = some t) : Inv t :=
  run_invariant_along h.keeps hs (Along.of_forall hok) hrun

/-- Each step has used up some of the measure. -/
theorem length_le (h : Completes step ok Inv Goal μ) :
    ∀ {as : List A} {s t : S}, Inv s → (∀ a ∈ as, ok a) → run step s as = some t →
      as.length + μ t ≤ μ s
  | [], s, t, _, _, hrun => by
      obtain rfl : s = t := by simpa using hrun
      simp
  | a :: as, s, t, hs, hok, hrun => by
      obtain ⟨s', ha, hrest⟩ := (run_cons_eq_some step).mp hrun
      have hoka : ok a := hok a List.mem_cons_self
      have hfall : μ s' < μ s := h.falls s a s' hs hoka ha
      have hle : as.length + μ t ≤ μ s' :=
        length_le h (h.keeps s a s' hs hoka ha) (fun b hb => hok b (List.mem_cons_of_mem a hb)) hrest
      rw [List.length_cons]
      omega

/-- The goal is never out of reach. -/
theorem reaches (h : Completes step ok Inv Goal μ) {s : S} (hs : Inv s) :
    ∃ as t, (∀ a ∈ as, ok a) ∧ run step s as = some t ∧ Goal t := by
  -- on the measure: a step leads to a state that is closer
  induction hn : μ s using Nat.strong_induction_on generalizing s with
  | h n ih =>
    by_cases hgoal : Goal s
    · exact ⟨[], s, by simp, rfl, hgoal⟩
    · obtain ⟨a, s', hoka, ha⟩ := h.moves s hs hgoal
      have hfall : μ s' < n := hn ▸ h.falls s a s' hs hoka ha
      obtain ⟨as, t, hok, hrun, ht⟩ := ih _ hfall (h.keeps s a s' hs hoka ha) rfl
      refine ⟨a :: as, t, ?_, (run_cons_eq_some step).mpr ⟨s', ha, hrun⟩, ht⟩
      intro b hb
      cases List.mem_cons.mp hb with
      | inl heq => exact heq ▸ hoka
      | inr hin => exact hok b hin

end Completes

end ModernCppKafka.Lib.Progress
