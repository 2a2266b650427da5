/-
  ModernCppKafka.Lib.Coverage — resuming a feed of records at a mark, without losing any.

  Records come in the order of their offsets and are done with in any order.  A mark `Covers`
  what is before it when all records there are done with, so that it is safe to go on from it
  after a crash.  A reader `Accounts` for the records before its position when each is done with
  or in its hands.

  Main results:
    * `Covers.grows`    — a mark covers for good, as records are appended or dropped;
    * `Accounts.covers` — what a reader may mark, from what it has in its hands;
    * `Covers.accounts` — and where it may start again.
-/
import Mathlib.Data.List.Basic
import Mathlib.Order.Lattice

namespace ModernCppKafka.Lib.Coverage

variable {R α : Type*} [LinearOrder α]

/-- The records there are, a bound above their offsets, and the records done with. -/
structure Feed (R α : Type*) where
  records : List R
  upper : α
  finished : List R

namespace Feed

variable (offset : R → α)

/-- Going on from `v` skips no record that is not done with, now or later. -/
structure Covers (f : Feed R α) (v : α) : Prop where
  le_upper : v ≤ f.upper
  finished : ∀ r ∈ f.records, offset r < v → r ∈ f.finished

/-- New records come at the end; what is done with stays so. -/
structure Grows (f f' : Feed R α) : Prop where
  records : ∀ r ∈ f'.records, r ∈ f.records ∨ f.upper ≤ offset r
  upper : f.upper ≤ f'.upper
  finished : ∀ r ∈ f.finished, r ∈ f'.finished

/-- A record before the position is done with or in hand. -/
structure Accounts (f : Feed R α) (position : α) (inHand : R → Prop) : Prop where
  le_upper : position ≤ f.upper
  all : ∀ r ∈ f.records, offset r < position → r ∈ f.finished ∨ inHand r

variable {offset} {f f' : Feed R α} {v position : α} {inHand : R → Prop}

theorem Grows.refl : Grows offset f f := ⟨fun _ hr => .inl hr, le_refl _, fun _ hr => hr⟩

/-- **A mark covers for good.** -/
theorem Covers.grows (h : f.Covers offset v) (hg : Grows offset f f') : f'.Covers offset v := by
  refine ⟨h.le_upper.trans hg.upper, fun r hr hlt => ?_⟩
  cases hg.records r hr with
  | inl hold => exact hg.finished r (h.finished r hold hlt)
  | inr hnew => exact absurd hlt (not_lt.mpr (h.le_upper.trans hnew))

/-- A reader that stands still keeps account, of more in its hands too. -/
theorem Accounts.grows {inHand' : R → Prop} (h : f.Accounts offset position inHand)
    (hg : Grows offset f f') (hin : ∀ r, inHand r → r ∈ f'.finished ∨ inHand' r) :
    f'.Accounts offset position inHand' := by
  refine ⟨h.le_upper.trans hg.upper, fun r hr hlt => ?_⟩
  cases hg.records r hr with
  | inl hold =>
    cases h.all r hold hlt with
    | inl hdone => exact .inl (hg.finished r hdone)
    | inr hhand => exact hin r hhand
  | inr hnew => exact absurd hlt (not_lt.mpr (h.le_upper.trans hnew))

/-- It accounts for what is before any earlier position, too. -/
theorem Accounts.of_le (h : f.Accounts offset position inHand) (hle : v ≤ position) :
    f.Accounts offset v inHand :=
  ⟨hle.trans h.le_upper, fun r hr hlt => h.all r hr (hlt.trans_le hle)⟩

/-- **A reader may mark** up to where it has nothing in hand that is not done with. -/
theorem Accounts.covers (h : f.Accounts offset position inHand) (hle : v ≤ position)
    (hin : ∀ r, inHand r → offset r < v → r ∈ f.finished) : f.Covers offset v := by
  obtain ⟨hupper, hall⟩ := h.of_le hle
  refine ⟨hupper, fun r hr hlt => ?_⟩
  cases hall r hr hlt with
  | inl hdone => exact hdone
  | inr hhand => exact hin r hhand hlt

/-- **A reader may start at a mark**, with empty hands. -/
theorem Covers.accounts (h : f.Covers offset v) : f.Accounts offset v inHand :=
  ⟨h.le_upper, fun r hr hlt => .inl (h.finished r hr hlt)⟩

/-- The reader moves on to the next record, which it takes in hand. -/
theorem Accounts.next {inHand' : R → Prop} {position' : α}
    (h : f.Accounts offset position inHand) (o : α) (hle : position' ≤ f.upper)
    (hnext : ∀ r ∈ f.records, position ≤ offset r → offset r < position' → offset r = o)
    (hkeep : ∀ r, inHand r → inHand' r) (htake : ∀ r ∈ f.records, offset r = o → inHand' r) :
    f.Accounts offset position' inHand' := by
  refine ⟨hle, fun r hr hlt => ?_⟩
  by_cases hbefore : offset r < position
  · exact (h.all r hr hbefore).imp_right (hkeep r)
  · exact .inr (htake r hr (hnext r hr (not_lt.mp hbefore) hlt))

end Feed

end ModernCppKafka.Lib.Coverage
