/-
  ModernCppKafka.Lib.DoWhile — a loop that tries until it is satisfied or the time is up.

      do { got = …; if (satisfied) break; } while (now < end);

  What the body gets in its turns, and whether there is time left after each, come from outside:
  they are the list the loop runs on.  `doWhile` gives `none` when the list ends before the loop
  does.

  Main results:
    * `doWhile_broke`   — the loop breaks with the first satisfying answer that comes in time;
    * `doWhile_timeUp`  — it gives up with the answer at which the time was up;
    * `doWhile_eq_none` — it goes on as long as there is neither.
-/
import Mathlib.Data.List.Basic

namespace ModernCppKafka.Lib.DoWhile

variable {α β : Type*}

/-- A turn: what the body got, and whether the condition then held. -/
structure Turn (α : Type*) where
  got : α
  inTime : Bool
  deriving DecidableEq, Repr

/-- How the loop ended; the last answer stays behind when the time was up. -/
inductive Ending (α β : Type*) where
  | broke (b : β)
  | timeUp (last : α)
  deriving DecidableEq, Repr

/-- `satisfied` tells what the loop breaks with. -/
def doWhile (satisfied : α → Option β) : List (Turn α) → Option (Ending α β)
  | [] => none
  | turn :: turns =>
    match satisfied turn.got with
    | some b => some (.broke b)
    | none => if turn.inTime then doWhile satisfied turns else some (.timeUp turn.got)

variable {satisfied : α → Option β}

/-- A turn after which the loop goes on. -/
def GoesOn (satisfied : α → Option β) (turn : Turn α) : Prop :=
  satisfied turn.got = none ∧ turn.inTime = true

instance (satisfied : α → Option β) (turn : Turn α) : Decidable (GoesOn satisfied turn) :=
  have : Decidable (satisfied turn.got = none) :=
    match h : satisfied turn.got with
    | none => .isTrue rfl
    | some _ => .isFalse (by simp)
  inferInstanceAs (Decidable (_ ∧ _))

theorem doWhile_append {pre turns : List (Turn α)} (h : ∀ turn ∈ pre, GoesOn satisfied turn) :
    doWhile satisfied (pre ++ turns) = doWhile satisfied turns := by
  induction pre with
  | nil => rfl
  | cons turn pre ih =>
    obtain ⟨hnone, htime⟩ := h turn List.mem_cons_self
    rw [List.cons_append, doWhile]
    simp only [hnone, htime, if_true]
    exact ih fun t ht => h t (List.mem_cons_of_mem turn ht)

/-- The turns up to the one that ends the loop. -/
theorem exists_last {turns : List (Turn α)} {e : Ending α β}
    (h : doWhile satisfied turns = some e) :
    ∃ pre turn post, turns = pre ++ turn :: post ∧ (∀ t ∈ pre, GoesOn satisfied t) ∧
      doWhile satisfied [turn] = some e ∧ ¬ GoesOn satisfied turn := by
  induction turns with
  | nil => simp [doWhile] at h
  | cons turn turns ih =>
    by_cases hgo : GoesOn satisfied turn
    · rw [doWhile] at h
      simp only [hgo.1, hgo.2, if_true] at h
      obtain ⟨pre, last, post, rfl, hpre, hlast⟩ := ih h
      refine ⟨turn :: pre, last, post, rfl, fun t ht => ?_, hlast⟩
      cases List.mem_cons.mp ht with
      | inl heq => exact heq ▸ hgo
      | inr hin => exact hpre t hin
    · refine ⟨[], turn, turns, rfl, by simp, ?_, hgo⟩
      rw [doWhile] at h ⊢
      split at h
      next => exact h
      next hnone =>
        have htime : ¬ turn.inTime = true := fun htime => hgo ⟨hnone, htime⟩
        simpa [htime] using h

/-- **The loop breaks** with the first satisfying answer, if all turns before had time left. -/
theorem doWhile_broke {turns : List (Turn α)} {b : β} :
    doWhile satisfied turns = some (.broke b) ↔
      ∃ pre turn post, turns = pre ++ turn :: post ∧ (∀ t ∈ pre, GoesOn satisfied t) ∧
        satisfied turn.got = some b := by
  constructor
  · intro h
    obtain ⟨pre, turn, post, rfl, hpre, hlast, -⟩ := exists_last h
    refine ⟨pre, turn, post, rfl, hpre, ?_⟩
    rw [doWhile] at hlast
    split at hlast
    next hb =>
      obtain rfl : _ = b := by simpa using hlast
      exact hb
    next => split at hlast <;> simp [doWhile] at hlast
  · intro h
    obtain ⟨pre, turn, post, rfl, hpre, hb⟩ := h
    rw [doWhile_append hpre, doWhile]
    simp only [hb]

/-- **The loop gives up** at the first turn after which there is no time left. -/
theorem doWhile_timeUp {turns : List (Turn α)} {a : α} :
    doWhile satisfied turns = some (.timeUp a) ↔
      ∃ pre turn post, turns = pre ++ turn :: post ∧ (∀ t ∈ pre, GoesOn satisfied t) ∧
        satisfied turn.got = none ∧ turn.inTime = false ∧ turn.got = a := by
  constructor
  · intro h
    obtain ⟨pre, turn, post, rfl, hpre, hlast, hstop⟩ := exists_last h
    refine ⟨pre, turn, post, rfl, hpre, ?_⟩
    rw [doWhile] at hlast
    split at hlast
    next => simp at hlast
    next hnone =>
      have htime : turn.inTime = false := by
        by_contra htime
        exact hstop ⟨hnone, by simpa using htime⟩
      refine ⟨hnone, htime, ?_⟩
      simpa [htime] using hlast
  · intro h
    obtain ⟨pre, turn, post, rfl, hpre, hnone, htime, rfl⟩ := h
    rw [doWhile_append hpre, doWhile]
    simp [hnone, htime]

/-- **The loop goes on** until a turn satisfies it or has no time left. -/
theorem doWhile_eq_none {turns : List (Turn α)} :
    doWhile satisfied turns = none ↔ ∀ turn ∈ turns, GoesOn satisfied turn := by
  induction turns with
  | nil => simp [doWhile]
  | cons turn turns ih =>
    rw [doWhile, List.forall_mem_cons]
    cases hb : satisfied turn.got with
    | some b => simp [GoesOn, hb]
    | none =>
      cases htime : turn.inTime with
      | false => simp [GoesOn, htime]
      | true => simpa [GoesOn, hb, htime] using ih

end ModernCppKafka.Lib.DoWhile
