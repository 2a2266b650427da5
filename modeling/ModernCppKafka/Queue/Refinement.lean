/-
  ModernCppKafka.Queue.Refinement — `ackOffset` is `Frontier.drain` on sorted lists.

  The binary heap matters only through its elements in order: `pending q`.  On that view the
  loop of `ackOffset` is the list algorithm of `Lib.Frontier`, element for element
  (`ackOffset_eq_drain`), and the library's lemmas about `drain` carry over to the queue.
-/
import ModernCppKafka.Lib.Frontier
import ModernCppKafka.Queue.CommitQueue

namespace ModernCppKafka.Queue

open ModernCppKafka.Lib.Frontier

instance : IsStrictWeakOrder Offset (· < ·) := isStrictWeakOrder_of_isOrderConnected

/-! ## §1. The elements of a heap in order. -/

namespace Heap

/-- The elements of a heap of offsets, smallest first. -/
def sorted (h : Heap Offset) : List Offset := h.data.toList.mergeSort (· ≤ ·)

theorem sorted_perm (h : Heap Offset) : h.sorted.Perm h.data.toList := List.mergeSort_perm _ _

theorem sorted_pairwise (h : Heap Offset) : h.sorted.Pairwise (· ≤ ·) := by
  have htrans : ∀ a b c : Offset, decide (a ≤ b) = true → decide (b ≤ c) = true →
      decide (a ≤ c) = true := by
    intro a b c hab hbc
    simp only [decide_eq_true_eq] at *
    exact hab.trans hbc
  have htotal : ∀ a b : Offset, (decide (a ≤ b) || decide (b ≤ a)) = true := by
    intro a b
    simpa using le_total a b
  exact (List.pairwise_mergeSort htrans htotal h.data.toList).imp
    (by intro a b hab; simpa using hab)

/-- Two sorted lists of the same elements are equal. -/
theorem sorted_eq {h : Heap Offset} {l : List Offset} (hl : l.Pairwise (· ≤ ·))
    (hp : h.data.toList.Perm l) : h.sorted = l :=
  (h.sorted_perm.trans hp).eq_of_pairwise (fun _ _ _ _ => le_antisymm) h.sorted_pairwise hl

theorem sorted_eq_nil {h : Heap Offset} : h.sorted = [] ↔ h.empty := by
  rw [← List.length_eq_zero_iff, h.sorted_perm.length_eq, Heap.empty,
    Array.isEmpty_iff_size_eq_zero]
  simp

/-- `push` inserts into the sorted elements. -/
theorem push_sorted {h : Heap Offset} (ho : h.Ordered) (o : Offset) :
    ∃ h', h.push o = some h' ∧ h'.Ordered ∧ h'.sorted = h.sorted.orderedInsert (· ≤ ·) o := by
  obtain ⟨h', hpush, ho', hperm⟩ := push_spec ho o
  refine ⟨h', hpush, ho', sorted_eq (h.sorted_pairwise.orderedInsert o _) (hperm.trans ?_)⟩
  exact (h.sorted_perm.symm.cons o).trans (List.perm_orderedInsert _ o h.sorted).symm

/-- `front` is the first of the sorted elements, and `pop_front` removes it. -/
theorem popFront_sorted {h : Heap Offset} (ho : h.Ordered) {x : Offset} {xs : List Offset}
    (hs : h.sorted = x :: xs) :
    h.front = some x ∧ ∃ h', h.popFront = some h' ∧ h'.Ordered ∧ h'.sorted = xs := by
  have hx : h.front = some x := by
    cases hf : h.front with
    | none =>
      have := h.sorted_perm
      rw [front_eq_none.mp hf, hs] at this
      simpa using this.length_eq
    | some y =>
      have hy : y ∈ h.sorted := h.sorted_perm.mem_iff.mpr
        (by rw [front_eq_head?] at hf; exact List.mem_of_head? hf)
      have hxy : ¬ x < y := front_min ho hf (h.sorted_perm.mem_iff.mp (by simp [hs]))
      have hle : x ≤ y := by
        rw [hs] at hy
        rcases List.mem_cons.mp hy with rfl | hy
        · exact le_refl y
        · exact List.rel_of_pairwise_cons (hs ▸ h.sorted_pairwise) hy
      rw [le_antisymm hle (not_lt.mp hxy)]
  obtain ⟨h', hpop, ho', hperm⟩ := popFront_spec ho hx
  refine ⟨hx, h', hpop, ho', sorted_eq (hs ▸ h.sorted_pairwise).of_cons ?_⟩
  have : (x :: xs).Perm (x :: h'.data.toList) := hs ▸ h.sorted_perm.trans hperm
  exact this.cons_inv.symm

end Heap

/-! ## §2. The loop. -/

namespace UnorderedOffsetCommitQueue

/-- The acknowledgements not used up yet, smallest first. -/
def pending (q : UnorderedOffsetCommitQueue) : List Offset := q.offsetsToCommit.sorted

/-- `_toCommit` after the offset `last` was retired last (`none`: no offset was). -/
def commitAfter (toCommit : Offset) : Option Offset → Offset
  | none => toCommit
  | some e => e + 1

/-- What the loop leaves behind, in terms of a drain's result; `base` is `_toCommit` before the
first offset was retired. -/
structure LoopResult (q q' : UnorderedOffsetCommitQueue) (base : Offset)
    (pending' rest : List Offset) (last : Option Offset) : Prop where
  ordered : q'.offsetsToCommit.Ordered
  pending_eq : q'.pending = pending'
  received_eq : q'.offsetsReceived = rest
  toCommit_eq : q'.toCommit = commitAfter base last
  committed_eq : q'.committed = q.committed
  partition_eq : q'.partitionInfo = q.partitionInfo

/-- The loop of `ackOffset` is the list algorithm on the sorted elements. -/
theorem ackLoop_eq_drain (base : Offset) (ps : List Offset) (q : UnorderedOffsetCommitQueue)
    (ho : q.offsetsToCommit.Ordered) (hp : q.pending = ps) (hne : ps ≠ []) (last : Option Offset)
    (hlast : q.toCommit = commitAfter base last) :
    match drain ps q.offsetsReceived last with
    | none => q.ackLoop = none
    | some (pending', rest, last') =>
        ∃ q', q.ackLoop = some q' ∧ LoopResult q q' base pending' rest last' := by
  induction ps generalizing q last with
  | nil => exact absurd rfl hne
  | cons p ps ih =>
    obtain ⟨hfront, heap, hpop, ho', hsorted⟩ := Heap.popFront_sorted ho hp
    have hempty : heap.empty = true ↔ ps = [] := by rw [← hsorted, Heap.sorted_eq_nil]
    -- one turn of the loop with the front thrown away: either it was the last one, or we go on
    have hturn : ∀ (q₁ : UnorderedOffsetCommitQueue) (last₁ : Option Offset),
        q₁.offsetsToCommit = heap → q₁.toCommit = commitAfter base last₁ →
        q₁.committed = q.committed → q₁.partitionInfo = q.partitionInfo →
        match drain ps q₁.offsetsReceived last₁ with
        | none => (if heap.empty then some q₁ else q₁.ackLoop) = none
        | some (pending', rest, last') =>
            ∃ q', (if heap.empty then some q₁ else q₁.ackLoop) = some q'
              ∧ LoopResult q q' base pending' rest last' := by
      intro q₁ last₁ hheap hcommit hcommitted hpart
      have hp₁ : q₁.pending = ps := by rw [pending, hheap, hsorted]
      by_cases hps : ps = []
      · subst hps
        rw [if_pos (hempty.mpr rfl), drain]
        exact ⟨q₁, rfl, hheap ▸ ho', hp₁, rfl, hcommit, hcommitted, hpart⟩
      · rw [if_neg (by rw [hempty]; exact hps)]
        have hrec := ih q₁ (hheap ▸ ho') hp₁ hps last₁ hcommit
        cases hd : drain ps q₁.offsetsReceived last₁ with
        | none => simpa [hd] using hrec
        | some res =>
          obtain ⟨pending', rest, last'⟩ := res
          simp only [hd] at hrec
          obtain ⟨q', hq', r⟩ := hrec
          exact ⟨q', hq', r.ordered, r.pending_eq, r.received_eq, r.toCommit_eq,
            r.committed_eq.trans hcommitted, r.partition_eq.trans hpart⟩
    rw [ackLoop_eq, hfront]
    cases hrcv : q.offsetsReceived with
    | nil => rw [drain]
    | cons e rest =>
      rw [drain]
      by_cases heq : p = e
      · simp only [heq, if_true, hpop, Option.bind_some]
        exact hturn { q with toCommit := e + 1, offsetsToCommit := heap, offsetsReceived := rest }
          (some e) rfl rfl rfl rfl
      · by_cases hlt : p < e
        · simp only [heq, hlt, if_true, if_false, hpop, Option.bind_some]
          have := hturn { q with
            errors := q.errors ++ [.ackTooSmall p e], offsetsToCommit := heap }
            last rfl hlast rfl rfl
          simpa only [hrcv] using this
        · simp only [heq, hlt, if_false]
          exact ⟨q, rfl, ho, hp, hrcv, hlast, rfl, rfl⟩

/-! ## §3. `ackOffset`. -/

/-- The list algorithm an `ackOffset(offset)` performs. -/
def ackDrain (q : UnorderedOffsetCommitQueue) (offset : Offset) :
    Option (List Offset × List Offset × Option Offset) :=
  drain (q.pending.orderedInsert (· ≤ ·) offset) q.offsetsReceived none

/-- **`ackOffset` refines `drain`.** -/
theorem ackOffset_eq_drain (q : UnorderedOffsetCommitQueue) (ho : q.offsetsToCommit.Ordered)
    (offset : Offset) :
    match q.ackDrain offset with
    | none => q.ackOffset offset = none
    | some (pending', rest, last) =>
        ∃ q', q.ackOffset offset = some q' ∧ LoopResult q q' q.toCommit pending' rest last := by
  have hne : q.pending.orderedInsert (· ≤ ·) offset ≠ [] := by
    intro h
    simpa [h] using List.orderedInsert_length (· ≤ ·) q.pending offset
  obtain ⟨heap, hpush, ho', hsorted⟩ := Heap.push_sorted ho offset
  unfold ackDrain ackOffset
  cases hback : q.offsetsReceived.getLast? with
  | none =>
    have hnil : q.offsetsReceived = [] := List.getLast?_eq_none_iff.mp hback
    obtain ⟨p, ps, hps⟩ := List.exists_cons_of_ne_nil hne
    rw [hnil, hps, drain]
  | some back =>
    -- the report of a too large offset touches nothing the loop reads
    obtain ⟨errors, herr⟩ := q.reportTooLarge_eq offset back
    simp only [herr, hpush]
    have hloop := ackLoop_eq_drain q.toCommit _
      { q with errors := errors, offsetsToCommit := heap } ho' hsorted hne none rfl
    cases hd : drain (q.pending.orderedInsert (· ≤ ·) offset) q.offsetsReceived none with
    | none =>
      rw [show q.offsetsToCommit.sorted = q.pending from rfl, hd] at hloop
      exact hloop
    | some res =>
      rw [show q.offsetsToCommit.sorted = q.pending from rfl, hd] at hloop
      obtain ⟨q', hq', r⟩ := hloop
      exact ⟨q', hq', r.ordered, r.pending_eq, r.received_eq, r.toCommit_eq, r.committed_eq,
        r.partition_eq⟩

end UnorderedOffsetCommitQueue

end ModernCppKafka.Queue
