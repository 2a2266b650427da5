/-
  ModernCppKafka.Queue.Safety — which calls read an empty container.

  `WellFormed` is the invariant of every queue a sequence of calls can reach: the heap is in
  order, and the deque is strictly increasing and not negative.  On such queues an `ackOffset`
  reads an empty container exactly when `AckOverruns` holds of it, so a sequence of calls is
  safe exactly when no call of it overruns (`run_safe_iff`).
-/
import ModernCppKafka.Lib.Run
import ModernCppKafka.Queue.Refinement

namespace ModernCppKafka.Queue

open ModernCppKafka.Lib.Frontier
open ModernCppKafka.Lib.Run
open UnorderedOffsetCommitQueue

/-- A queue no call has been made on, for the partition `info` describes. -/
def fresh (info : String) : UnorderedOffsetCommitQueue := { partitionInfo := info }

/-! ## §1. The invariant of a reachable queue. -/

structure WellFormed (q : UnorderedOffsetCommitQueue) : Prop where
  ordered : q.offsetsToCommit.Ordered
  increasing : q.offsetsReceived.Pairwise (· < ·)
  nonneg : ∀ o ∈ q.offsetsReceived, 0 ≤ o

theorem wellFormed_fresh (info : String) : WellFormed (fresh info) :=
  ⟨Heap.ordered_empty, List.Pairwise.nil, by simp [fresh]⟩

/-- What `waitOffset` accepts is not negative and larger than all received. -/
theorem accepts_iff (q : UnorderedOffsetCommitQueue) (hq : WellFormed q) (o : Offset) :
    q.accepts o = true ↔ 0 ≤ o ∧ ∀ e ∈ q.offsetsReceived, e < o := by
  unfold accepts
  cases hback : q.offsetsReceived.getLast? with
  | none =>
    rw [List.getLast?_eq_none_iff] at hback
    simp [hback]
  | some back =>
    have hall : (∀ e ∈ q.offsetsReceived, e < o) ↔ back < o :=
      ⟨fun h => h back (List.mem_of_getLast? hback),
        fun h e he => (le_getLast hq.increasing he hback).trans_lt h⟩
    simp [hall]

theorem waitOffset_wellFormed {q : UnorderedOffsetCommitQueue} (hq : WellFormed q) (o : Offset) :
    WellFormed (q.waitOffset o) := by
  unfold waitOffset
  split
  next hacc =>
    obtain ⟨hpos, hlt⟩ := (accepts_iff q hq o).mp hacc
    refine ⟨hq.ordered, ?_, ?_⟩
    · rw [List.pairwise_append]
      exact ⟨hq.increasing, List.pairwise_singleton _ _, fun e he x hx => by
        obtain rfl : x = o := by simpa using hx
        exact hlt e he⟩
    · intro x hx
      rcases List.mem_append.mp hx with hx | hx
      · exact hq.nonneg x hx
      · exact (List.mem_singleton.mp hx) ▸ hpos
  next => exact ⟨hq.ordered, hq.increasing, hq.nonneg⟩

/-- What a successful `ackOffset` does, on a well-formed queue: it retires a prefix of the
deque, every element of which was acknowledged by this call or an earlier one, and keeps some
of the other acknowledgements. -/
theorem ackOffset_spec {q q' : UnorderedOffsetCommitQueue} (hq : WellFormed q) {o : Offset}
    (h : q.ackOffset o = some q') :
    ∃ retired, Drained (q.pending.orderedInsert (· ≤ ·) o) q.offsetsReceived q'.pending
        q'.offsetsReceived retired
      ∧ q'.toCommit = commitAfter q.toCommit retired.getLast?
      ∧ q'.committed = q.committed ∧ q'.offsetsToCommit.Ordered := by
  have href := ackOffset_eq_drain q hq.ordered o
  cases hd : q.ackDrain o with
  | none =>
    rw [hd] at href
    simp [h] at href
  | some res =>
    obtain ⟨pending', rest, last⟩ := res
    rw [hd] at href
    obtain ⟨q₁, hq₁, r⟩ := href
    obtain rfl : q' = q₁ := by simpa [h] using hq₁
    obtain ⟨retired, d, hl⟩ :=
      drain_some (q.offsetsToCommit.sorted_pairwise.orderedInsert o _) hd
    refine ⟨retired, ?_, ?_, r.committed_eq, r.ordered⟩
    · rw [r.pending_eq, r.received_eq]
      exact d
    · rw [r.toCommit_eq, hl, Option.or_none]

theorem step_wellFormed (q : UnorderedOffsetCommitQueue) (c : Call)
    (q' : UnorderedOffsetCommitQueue) (hq : WellFormed q) (h : step q c = some q') :
    WellFormed q' := by
  cases c with
  | waitOffset o =>
    obtain rfl : q.waitOffset o = q' := by simpa [step] using h
    exact waitOffset_wellFormed hq o
  | ackOffset o =>
    obtain ⟨retired, d, -, -, ho⟩ := ackOffset_spec hq h
    have hsub : q'.offsetsReceived <:+ q.offsetsReceived := ⟨retired, d.split.symm⟩
    exact ⟨ho, hq.increasing.sublist hsub.sublist, fun x hx => hq.nonneg x (hsub.subset hx)⟩
  | popOffsetToCommit =>
    obtain rfl : q.popOffsetToCommit.1 = q' := by simpa [step] using h
    unfold popOffsetToCommit
    split
    · exact ⟨hq.ordered, hq.increasing, hq.nonneg⟩
    · exact hq
  | lastPoppedOffset =>
    obtain rfl : q = q' := by simpa [step] using h
    exact hq

/-! ## §2. The calls that read an empty container. -/

/-- Nothing is waiting; or the call acknowledges the last of the waiting offsets still missing
and one more acknowledgement, at or above the largest of them, is left over in the heap. -/
def AckOverruns (q : UnorderedOffsetCommitQueue) (o : Offset) : Prop :=
  Overruns (o :: q.offsetsToCommit.data.toList) q.offsetsReceived

instance (q : UnorderedOffsetCommitQueue) (o : Offset) : Decidable (AckOverruns q o) :=
  inferInstanceAs (Decidable (Overruns _ _))

/-- The order of the acknowledgements does not matter for an overrun. -/
theorem overruns_perm {l l' received : List Offset} (h : l.Perm l') :
    Overruns l received ↔ Overruns l' received := by
  unfold Overruns
  cases received.getLast? with
  | none => simp only [ne_eq, ← List.length_eq_zero_iff, h.length_eq]
  | some b => simp only [h.mem_iff, h.countP_eq]

theorem ackOffset_eq_none {q : UnorderedOffsetCommitQueue} (hq : WellFormed q) (o : Offset) :
    q.ackOffset o = none ↔ AckOverruns q o := by
  have hperm : (q.pending.orderedInsert (· ≤ ·) o).Perm (o :: q.offsetsToCommit.data.toList) :=
    (List.perm_orderedInsert _ o _).trans (q.offsetsToCommit.sorted_perm.cons o)
  have hnone : q.ackDrain o = none ↔ AckOverruns q o :=
    (drain_none (q.offsetsToCommit.sorted_pairwise.orderedInsert o _) hq.increasing).trans
      (overruns_perm hperm)
  rw [← hnone]
  have href := ackOffset_eq_drain q hq.ordered o
  cases hd : q.ackDrain o with
  | none => simpa [hd] using href
  | some res =>
    rw [hd] at href
    obtain ⟨q', hq', -⟩ := href
    simp [hq']

/-- The condition on a call, and the queue before it, under which it reads no empty container. -/
def SafeCall (q : UnorderedOffsetCommitQueue) : Call → Prop
  | .ackOffset o => ¬ AckOverruns q o
  | _ => True

instance (q : UnorderedOffsetCommitQueue) : ∀ c : Call, Decidable (SafeCall q c)
  | .ackOffset o => inferInstanceAs (Decidable (¬ AckOverruns q o))
  | .waitOffset _ | .popOffsetToCommit | .lastPoppedOffset => .isTrue trivial

theorem step_isSome_iff (q : UnorderedOffsetCommitQueue) (c : Call) (hq : WellFormed q) :
    (step q c).isSome ↔ SafeCall q c := by
  cases c with
  | ackOffset o =>
    rw [step, SafeCall, ← ackOffset_eq_none hq o, Option.isSome_iff_ne_none, ne_eq]
  | _ => simp [step, SafeCall]

/-- **A sequence of calls is safe exactly when none of its calls overruns.** -/
theorem run_safe_iff (info : String) (cs : List Call) :
    (run step (fresh info) cs).isSome ↔ Along step SafeCall (fresh info) cs :=
  run_isSome_iff_along step_wellFormed step_isSome_iff (wellFormed_fresh info)

/-- An acknowledgement reported as too large is still in the heap when the deque runs empty. -/
theorem late_ack_overruns :
    ¬ ∀ cs, (run step (fresh "") cs).isSome := by
  intro h
  have : run step (fresh "") [.waitOffset 1, .ackOffset 2, .ackOffset 1] = none := by
    decide +kernel
  simpa [this] using h [.waitOffset 1, .ackOffset 2, .ackOffset 1]

end ModernCppKafka.Queue
