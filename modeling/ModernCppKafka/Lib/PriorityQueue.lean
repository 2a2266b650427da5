/-
  ModernCppKafka.Lib.PriorityQueue — priority queues, by what they hold.

  The state is the multiset of the elements held and the list of those popped so far.  `pop`
  removes an element that none of the others is before; which one, if there are several, is left
  open.

  The rules:
    * `pushes_spec` — pushing a list adds its elements;
    * `pops_spec`   — what a row of pops yields is in order;
    * `sorts`       — as many pops as pushes sort what was pushed.
-/
import Mathlib.Data.Multiset.AddSub

namespace ModernCppKafka.Lib.PriorityQueue

variable {α : Type*}

inductive Op (α : Type*) where
  | push (t : α)
  | pop

/-- One operation. -/
inductive Step (lt : α → α → Prop) : Multiset α × List α → Op α → Multiset α × List α → Prop
  | push (held : Multiset α) (out : List α) (t : α) :
      Step lt (held, out) (.push t) (t ::ₘ held, out)
  | pop (held : Multiset α) (out : List α) (x : α) : (∀ y ∈ held, ¬ lt y x) →
      Step lt (x ::ₘ held, out) .pop (held, out ++ [x])

/-- Operations in a row. -/
inductive Steps (lt : α → α → Prop) :
    Multiset α × List α → List (Op α) → Multiset α × List α → Prop
  | nil (s : Multiset α × List α) : Steps lt s [] s
  | cons {s s' s'' : Multiset α × List α} {op : Op α} {ops : List (Op α)} :
      Step lt s op s' → Steps lt s' ops s'' → Steps lt s (op :: ops) s''

variable {lt : α → α → Prop}

theorem Steps.append_inv {s s'' : Multiset α × List α} {ops ops' : List (Op α)}
    (h : Steps lt s (ops ++ ops') s'') : ∃ s', Steps lt s ops s' ∧ Steps lt s' ops' s'' := by
  induction ops generalizing s with
  | nil => exact ⟨s, .nil s, h⟩
  | cons op ops ih =>
    cases h with
    | cons hstep hrest =>
      obtain ⟨s', h₁, h₂⟩ := ih hrest
      exact ⟨s', .cons hstep h₁, h₂⟩

/-- Pushing a list adds its elements, and pops nothing. -/
theorem pushes_spec {held held' : Multiset α} {out out' xs : List α}
    (h : Steps lt (held, out) (xs.map .push) (held', out')) :
    held' = held + (xs : Multiset α) ∧ out' = out := by
  induction xs generalizing held out with
  | nil =>
    cases h
    exact ⟨by simp, rfl⟩
  | cons x xs ih =>
    cases h with
    | cons hstep hrest =>
      cases hstep
      obtain ⟨hheld, hout⟩ := ih hrest
      refine ⟨?_, hout⟩
      rw [hheld, Multiset.cons_add, ← Multiset.cons_coe, Multiset.add_cons]

/-- A row of pops yields elements that were held, in order. -/
theorem pops_spec {n : Nat} {held held' : Multiset α} {out out' : List α}
    (h : Steps lt (held, out) (List.replicate n .pop) (held', out')) :
    ∃ xs : List α, xs.length = n ∧ out' = out ++ xs ∧ held = (xs : Multiset α) + held' ∧
      xs.Pairwise fun x y => ¬ lt y x := by
  induction n generalizing held out with
  | zero =>
    cases h
    exact ⟨[], rfl, by simp, by simp, .nil⟩
  | succ n ih =>
    cases h with
    | cons hstep hrest =>
      cases hstep with
      | pop held₁ _ x hmin =>
        obtain ⟨xs, hlen, hout, hheld, hsorted⟩ := ih hrest
        refine ⟨x :: xs, by simp [hlen], by simp [hout], ?_, ?_⟩
        · rw [hheld, ← Multiset.cons_coe, Multiset.cons_add]
        · -- the rest came out of what `x` was a minimum of
          refine List.pairwise_cons.mpr ⟨fun y hy => hmin y ?_, hsorted⟩
          rw [hheld]
          exact Multiset.mem_add.mpr (.inl (by simpa using hy))

/-- **As many pops as pushes sort** what was pushed. -/
theorem sorts {xs : List α} {held : Multiset α} {out : List α}
    (h : Steps lt (0, []) (xs.map .push ++ List.replicate xs.length .pop) (held, out)) :
    held = 0 ∧ out.Perm xs ∧ out.Pairwise fun x y => ¬ lt y x := by
  obtain ⟨⟨held₁, out₁⟩, hpush, hpop⟩ := h.append_inv
  obtain ⟨rfl, rfl⟩ := pushes_spec hpush
  obtain ⟨ys, hlen, hout, hheld, hsorted⟩ := pops_spec hpop
  obtain rfl : out = ys := by simpa using hout
  have hcoe : (xs : Multiset α) = (out : Multiset α) + held := by simpa using hheld
  -- all that was pushed has come out, by counting
  have hempty : held = 0 := by
    have hcard := congrArg Multiset.card hcoe
    simp only [Multiset.coe_card, Multiset.card_add] at hcard
    exact Multiset.card_eq_zero.mp (by omega)
  refine ⟨hempty, ?_, hsorted⟩
  rw [hempty, Multiset.add_zero] at hcoe
  exact (Multiset.coe_eq_coe.mp hcoe).symm

end ModernCppKafka.Lib.PriorityQueue
