/-
  ModernCppKafka.Lib.ForEach — a loop over a list that an exception ends.

      for (x : xs) f(x);

  `forEach f xs` is the elements the loop came to, the one that threw included, and how it ended.

  Main results:
    * `forEach_ok`    — the loop ends well when no element throws, and has come to all;
    * `forEach_error` — else it ends with the first that throws.
-/
import Mathlib.Data.List.Basic

namespace ModernCppKafka.Lib.ForEach

variable {α ε : Type*}

def forEach (f : α → Except ε Unit) : List α → List α × Except ε Unit
  | [] => ([], .ok ())
  | x :: xs =>
    match f x with
    | .ok () => (x :: (forEach f xs).1, (forEach f xs).2)
    | .error e => ([x], .error e)

variable {f : α → Except ε Unit}

theorem forEach_of_ok {xs : List α} (h : ∀ x ∈ xs, f x = .ok ()) :
    forEach f xs = (xs, .ok ()) := by
  induction xs with
  | nil => rfl
  | cons x xs ih =>
    unfold forEach
    rw [h x List.mem_cons_self, ih fun y hy => h y (List.mem_cons_of_mem x hy)]

theorem forEach_of_error {pre post : List α} {x : α} {e : ε} (hpre : ∀ y ∈ pre, f y = .ok ())
    (hx : f x = .error e) : forEach f (pre ++ x :: post) = (pre ++ [x], .error e) := by
  induction pre with
  | nil => simp only [List.nil_append, forEach, hx]
  | cons y pre ih =>
    simp only [List.cons_append, forEach, hpre y List.mem_cons_self,
      ih fun z hz => hpre z (List.mem_cons_of_mem y hz)]

/-- There is a first element that throws, unless none does. -/
theorem all_ok_or_first (f : α → Except ε Unit) (xs : List α) :
    (∀ x ∈ xs, f x = .ok ()) ∨
      ∃ pre x post e, xs = pre ++ x :: post ∧ (∀ y ∈ pre, f y = .ok ()) ∧ f x = .error e := by
  induction xs with
  | nil => exact Or.inl (by simp)
  | cons x xs ih =>
    cases hx : f x with
    | error e => exact Or.inr ⟨[], x, xs, e, rfl, by simp, hx⟩
    | ok u =>
      cases ih with
      | inl hall => exact Or.inl (List.forall_mem_cons.mpr ⟨hx, hall⟩)
      | inr hfirst =>
        obtain ⟨pre, y, post, e, rfl, hpre, hy⟩ := hfirst
        exact Or.inr ⟨x :: pre, y, post, e, rfl, List.forall_mem_cons.mpr ⟨hx, hpre⟩, hy⟩

/-- **The loop ends well** when no element throws. -/
theorem forEach_ok {xs reached : List α} :
    forEach f xs = (reached, .ok ()) ↔ (∀ x ∈ xs, f x = .ok ()) ∧ reached = xs := by
  constructor
  · intro h
    cases all_ok_or_first f xs with
    | inl hall =>
      rw [forEach_of_ok hall] at h
      exact ⟨hall, (Prod.mk.inj h).1.symm⟩
    | inr hfirst =>
      obtain ⟨pre, x, post, e, rfl, hpre, hx⟩ := hfirst
      simp [forEach_of_error hpre hx] at h
  · intro h
    rw [h.2, forEach_of_ok h.1]

/-- **The loop is ended** by the first element that throws. -/
theorem forEach_error {xs reached : List α} {e : ε} :
    forEach f xs = (reached, .error e) ↔
      ∃ pre x post, xs = pre ++ x :: post ∧ (∀ y ∈ pre, f y = .ok ()) ∧ f x = .error e ∧
        reached = pre ++ [x] := by
  constructor
  · intro h
    cases all_ok_or_first f xs with
    | inl hall => simp [forEach_of_ok hall] at h
    | inr hfirst =>
      obtain ⟨pre, x, post, e', rfl, hpre, hx⟩ := hfirst
      rw [forEach_of_error hpre hx] at h
      obtain ⟨hreached, he⟩ := Prod.mk.inj h
      exact ⟨pre, x, post, rfl, hpre, hx.trans he, hreached.symm⟩
  · intro h
    obtain ⟨pre, x, post, rfl, hpre, hx, rfl⟩ := h
    exact forEach_of_error hpre hx

/-- How the loop ends, whatever it has come to. -/
theorem forEach_snd_ok {xs : List α} : (forEach f xs).2 = .ok () ↔ ∀ x ∈ xs, f x = .ok () := by
  constructor
  · intro h
    exact (forEach_ok.mp (Prod.ext rfl h : forEach f xs = (_, .ok ()))).1
  · intro h
    rw [forEach_of_ok h]

theorem forEach_snd_error {xs : List α} {e : ε} :
    (forEach f xs).2 = .error e ↔
      ∃ pre x post, xs = pre ++ x :: post ∧ (∀ y ∈ pre, f y = .ok ()) ∧ f x = .error e := by
  constructor
  · intro h
    obtain ⟨pre, x, post, heq, hpre, hx, -⟩ :=
      forEach_error.mp (Prod.ext rfl h : forEach f xs = (_, .error e))
    exact ⟨pre, x, post, heq, hpre, hx⟩
  · intro h
    obtain ⟨pre, x, post, rfl, hpre, hx⟩ := h
    rw [forEach_of_error hpre hx]

end ModernCppKafka.Lib.ForEach
