/-
  ModernCppKafka.Queue.CommitQueue — `UnorderedOffsetCommitQueue` of
  include/kafka/addons/UnorderedOffsetCommitQueue.h.

  The deque is a `List`, the heap is `Heap Offset`.  A member function returns `none` where the
  code reads `front()`, `back()` or pops from an empty container (undefined for the deque,
  `std::out_of_range` for the heap).  The three error reports go to `errors`, in order; nothing
  reads them back.

  `Call` is one call by a user of the queue and `step` its effect, so a sequence of calls is a
  `Lib.Run.run`.
-/
import ModernCppKafka.Types
import ModernCppKafka.Queue.Heap

namespace ModernCppKafka.Queue

/-- `static constexpr Offset INVALID_OFFSET = -1`. -/
def INVALID_OFFSET : Offset := -1

/-! ## §1. The error reports. -/

/-- What the queue reports at `Log::Level::Err`. -/
inductive Report where
  /-- `waitOffset` was given a negative or non-increasing offset. -/
  | invalidWait (offset : Offset)
  /-- `ackOffset` was given an offset larger than all received. -/
  | ackTooLarge (offset maxOffsetReceived : Offset)
  /-- An acknowledgement turned out smaller than the offset expected. -/
  | ackTooSmall (minOffsetToCommit expectedOffset : Offset)
  deriving DecidableEq, Repr

/-- The text of a report; `partitionInfo` is empty for a queue built without a partition. -/
def Report.text (partitionInfo : String) : Report → String
  | .invalidWait o =>
      "Got invalid offset to wait[" ++ toString o.toInt ++ "]! " ++ partitionInfo
  | .ackTooLarge o m =>
      "Got invalid ack offset[" ++ toString o.toInt ++ "]! Even larger than all offsets received["
        ++ toString m.toInt ++ "]! " ++ partitionInfo
  | .ackTooSmall o e =>
      "Got invalid ack offset[" ++ toString o.toInt ++ "]! Even smaller than expected["
        ++ toString e.toInt ++ "]! " ++ partitionInfo

/-! ## §2. The queue. -/

structure UnorderedOffsetCommitQueue where
  offsetsReceived : List Offset := []
  offsetsToCommit : Heap Offset := {}
  toCommit : Offset := INVALID_OFFSET
  committed : Offset := INVALID_OFFSET
  partitionInfo : String := ""
  errors : List Report := []
  deriving DecidableEq

namespace UnorderedOffsetCommitQueue

/-- `UnorderedOffsetCommitQueue(topic, partition)`. -/
def ofPartition (topic : Topic) (partition : Partition) : UnorderedOffsetCommitQueue :=
  { partitionInfo := "topic[" ++ topic ++ "], paritition[" ++ toString partition.toInt ++ "]" }

def size (q : UnorderedOffsetCommitQueue) : Nat := q.offsetsReceived.length

/-- The test of `waitOffset`: not negative, and larger than the last offset waited for. -/
def accepts (q : UnorderedOffsetCommitQueue) (offset : Offset) : Bool :=
  !(offset < 0 || match q.offsetsReceived.getLast? with
    | none => false
    | some back => offset ≤ back)

def waitOffset (q : UnorderedOffsetCommitQueue) (offset : Offset) : UnorderedOffsetCommitQueue :=
  if q.accepts offset then { q with offsetsReceived := q.offsetsReceived ++ [offset] }
  else { q with errors := q.errors ++ [.invalidWait offset] }

/-- The `do … while (!_offsetsToCommit.empty())` loop of `ackOffset`. -/
def ackLoop (q : UnorderedOffsetCommitQueue) : Option UnorderedOffsetCommitQueue :=
  match q.offsetsToCommit.front, q.offsetsReceived with
  | some minOffsetToCommit, expectedOffset :: rest =>
      if minOffsetToCommit = expectedOffset then
        match _hp : q.offsetsToCommit.popFront with
        | none => none
        | some heap =>
            let q' := { q with
              toCommit := expectedOffset + 1, offsetsToCommit := heap, offsetsReceived := rest }
            if heap.empty then some q' else ackLoop q'
      else if minOffsetToCommit < expectedOffset then
        match _hp : q.offsetsToCommit.popFront with
        | none => none
        | some heap =>
            let q' := { q with
              errors := q.errors ++ [.ackTooSmall minOffsetToCommit expectedOffset]
              offsetsToCommit := heap }
            if heap.empty then some q' else ackLoop q'
      else some q
  | _, _ => none
termination_by q.offsetsToCommit.size
decreasing_by all_goals exact Heap.popFront_size _hp

/-- The first statement of `ackOffset`: an offset larger than all received is reported. -/
def reportTooLarge (q : UnorderedOffsetCommitQueue) (offset maxOffsetReceived : Offset) :
    UnorderedOffsetCommitQueue :=
  if maxOffsetReceived < offset then
    { q with errors := q.errors ++ [.ackTooLarge offset maxOffsetReceived] }
  else q

def ackOffset (q : UnorderedOffsetCommitQueue) (offset : Offset) :
    Option UnorderedOffsetCommitQueue :=
  match q.offsetsReceived.getLast? with
  | none => none
  | some maxOffsetReceived =>
      -- reported or not, the offset goes into the heap
      let q := q.reportTooLarge offset maxOffsetReceived
      match q.offsetsToCommit.push offset with
      | none => none
      | some heap => ackLoop { q with offsetsToCommit := heap }

/-- A report changes nothing but the list of reports. -/
theorem reportTooLarge_eq (q : UnorderedOffsetCommitQueue) (offset back : Offset) :
    ∃ errors, q.reportTooLarge offset back = { q with errors := errors } := by
  unfold reportTooLarge
  split
  · exact ⟨_, rfl⟩
  · exact ⟨q.errors, rfl⟩

/-- The loop, unfolded once. -/
theorem ackLoop_eq (q : UnorderedOffsetCommitQueue) : q.ackLoop =
    match q.offsetsToCommit.front, q.offsetsReceived with
    | some minOffsetToCommit, expectedOffset :: rest =>
        if minOffsetToCommit = expectedOffset then
          q.offsetsToCommit.popFront.bind fun heap =>
            let q' := { q with
              toCommit := expectedOffset + 1, offsetsToCommit := heap, offsetsReceived := rest }
            if heap.empty then some q' else ackLoop q'
        else if minOffsetToCommit < expectedOffset then
          q.offsetsToCommit.popFront.bind fun heap =>
            let q' := { q with
              errors := q.errors ++ [.ackTooSmall minOffsetToCommit expectedOffset]
              offsetsToCommit := heap }
            if heap.empty then some q' else ackLoop q'
        else some q
    | _, _ => none := by
  rw [ackLoop]
  split
  next p e rest _ _ =>
    by_cases heq : p = e
    · simp only [heq, if_true]
      split <;> simp_all
    · by_cases hlt : p < e
      · simp only [heq, hlt, if_true, if_false]
        split <;> simp_all
      · simp only [heq, hlt, if_false]
  · rfl

def popOffsetToCommit (q : UnorderedOffsetCommitQueue) :
    UnorderedOffsetCommitQueue × Option Offset :=
  if q.committed ≠ q.toCommit then ({ q with committed := q.toCommit }, some q.toCommit)
  else (q, none)

def lastPoppedOffset (q : UnorderedOffsetCommitQueue) : Option Offset :=
  if q.committed ≠ INVALID_OFFSET then some q.committed else none

end UnorderedOffsetCommitQueue

/-! ## §3. Calls. -/

/-- A call of one of the four member functions. -/
inductive Call where
  | waitOffset (offset : Offset)
  | ackOffset (offset : Offset)
  | popOffsetToCommit
  | lastPoppedOffset
  deriving DecidableEq, Repr

/-- The effect of one call; `none` when it reads an empty container. -/
def step (q : UnorderedOffsetCommitQueue) : Call → Option UnorderedOffsetCommitQueue
  | .waitOffset o => some (q.waitOffset o)
  | .ackOffset o => q.ackOffset o
  | .popOffsetToCommit => some q.popOffsetToCommit.1
  | .lastPoppedOffset => some q

end ModernCppKafka.Queue
