/-
  ModernCppKafka.Consumer.CommitCallbacks — the callables of `commitAsync`, in
  include/kafka/KafkaConsumer.h.

  `commitAsync` copies its callback to the heap and gives librdkafka the pointer; librdkafka puts
  the answer, with the pointer, into the queue that `offsetCommitCallback` is run from, which
  runs the callback and frees it.  A pointer is the number of callables allocated before.
  Assumed of librdkafka, as documented: one answer for each commit it accepted, none for one it
  refused.

  Main results:
    * `Sound.settled`  — once librdkafka owes nothing, every callable of a `commitAsync` that
      returned was freed, once, and none of one that threw;
    * `Sound.runOnce`  — at any time none was freed twice, and the callbacks ran with the answers
      in the order these came.
-/
import ModernCppKafka.Consumer.Commit
import ModernCppKafka.Lib.Custody

namespace ModernCppKafka.Consumer

open ModernCppKafka.Lib.Custody

/-! ## §1. The code. -/

/-- The pointer to a callable on the heap. -/
abbrev CallbackId := ℕ

/-- What `rd_kafka_commit_queue` answers with: its opaque, and the callback's arguments. -/
structure CommitAnswer where
  opaqueId : CallbackId
  err : RespErr
  rk_tpos : Option RkTopicPartitionList
  deriving DecidableEq

/-- A run of a callback. -/
structure CallbackRun (Cb : Type) where
  cb : Cb
  tpos : TopicPartitionOffsets
  error : Error

/-- `Cb` is the type of the callables an `OffsetCommitCallback` can hold; an empty
`std::function` is `none`. -/
structure CommitCallbacks (Cb : Type) where
  /-- What was put on the heap, by pointer. -/
  allocated : List (Option Cb) := []
  /-- Commits accepted and not answered. -/
  pending : List CallbackId := []
  /-- `_rk_commit_cb_queue`. -/
  queue : List CommitAnswer := []
  runs : List (CallbackRun Cb) := []
  /-- Whose `commitAsync` returned, and whose threw. -/
  returned : List CallbackId := []
  threw : List CallbackId := []
  /-- All answers queued, and those `offsetCommitCallback` took: it frees the callable. -/
  answered : List CommitAnswer := []
  taken : List CommitAnswer := []

namespace CommitCallbacks

variable {Cb : Type}

/-- The callables deleted, in order. -/
def freed (c : CommitCallbacks Cb) : List CallbackId := c.taken.map CommitAnswer.opaqueId

/-- librdkafka queues an answer. -/
def enqueue (c : CommitCallbacks Cb) (answer : CommitAnswer) : CommitCallbacks Cb :=
  { c with queue := c.queue ++ [answer], answered := c.answered ++ [answer] }

/-- `commitAsync(topicPartitionOffsets, offsetCommitCallback)`.  librdkafka answers the call
with `respErr`, and, once its consumer is closed, the commit with `closedErr` at once. -/
def commitAsync (c : CommitCallbacks Cb) (topicPartitionOffsets : TopicPartitionOffsets)
    (offsetCommitCallback : Option Cb) (respErr : RespErr) (closedErr : Option RespErr) :
    CommitCallbacks Cb :=
  let pointer := c.allocated.length
  let c := { c with allocated := c.allocated ++ [offsetCommitCallback] }
  match Consumer.commitAsync topicPartitionOffsets respErr pointer with
  -- the exception leaves the callable behind
  | (_, .error _) => { c with threw := c.threw ++ [pointer] }
  | (request, .ok ()) =>
    let c := { c with returned := c.returned ++ [pointer] }
    match closedErr with
    | none => { c with pending := c.pending ++ [pointer] }
    | some err => c.enqueue ⟨pointer, err, request.offsets⟩

/-- librdkafka has the result of a commit, or gives up. -/
def answer (c : CommitCallbacks Cb) (answer : CommitAnswer) : Option (CommitCallbacks Cb) :=
  if answer.opaqueId ∈ c.pending then
    some ({ c with pending := c.pending.erase answer.opaqueId }.enqueue answer)
  else none

/-- The callback is called unless it is empty. -/
def callbackRun (allocated : List (Option Cb)) (answer : CommitAnswer) :
    Option (CallbackRun Cb) :=
  (allocated[answer.opaqueId]?.join).map fun cb =>
    ⟨cb, getTopicPartitionOffsets answer.rk_tpos, Error.ofRespErr answer.err⟩

/-- `KafkaConsumer::offsetCommitCallback`. -/
def offsetCommitCallback (c : CommitCallbacks Cb) (answer : CommitAnswer) : CommitCallbacks Cb :=
  { c with
    runs := c.runs ++ (callbackRun c.allocated answer).toList
    taken := c.taken ++ [answer] }

/-- `rd_kafka_queue_poll_callback` serves an answer. -/
def serve (c : CommitCallbacks Cb) : Option (CommitCallbacks Cb) :=
  match c.queue with
  | [] => none
  | answer :: queue => some ({ c with queue }.offsetCommitCallback answer)

/-! ## §2. The custody of callables. -/

/-- Every callable of a commit accepted is with librdkafka, in the queue or freed. -/
structure Sound (c : CommitCallbacks Cb) : Prop where
  ledger : Ledger c.returned c.threw (c.pending ++ c.queue.map CommitAnswer.opaqueId) c.freed
  pointers : ∀ p, p ∈ c.returned ++ c.threw ↔ p < c.allocated.length
  order : c.answered = c.taken ++ c.queue
  runs : c.runs = c.taken.filterMap (callbackRun c.allocated)

theorem sound_empty : Sound ({} : CommitCallbacks Cb) :=
  ⟨Ledger.empty, by simp, rfl, rfl⟩

theorem Sound.pointer_fresh {c : CommitCallbacks Cb} (h : c.Sound) :
    c.allocated.length ∉ c.returned ++ c.threw :=
  fun hin => lt_irrefl _ ((h.pointers _).mp hin)

/-- The pointer of the next callable joins the others. -/
theorem Sound.pointers_alloc {c : CommitCallbacks Cb} (h : c.Sound) (cb : Option Cb)
    (p : CallbackId) : (p ∈ c.returned ∨ p ∈ c.threw) ∨ p = c.allocated.length ↔
      p < (c.allocated ++ [cb]).length := by
  rw [← List.mem_append, h.pointers, List.length_append, List.length_singleton]
  exact Nat.lt_succ_iff_lt_or_eq.symm

/-- A callable that was freed stays where it is when another one is allocated. -/
theorem Sound.runs_alloc {c : CommitCallbacks Cb} (h : c.Sound) (cb : Option Cb) :
    c.runs = c.taken.filterMap (callbackRun (c.allocated ++ [cb])) := by
  rw [h.runs]
  apply List.filterMap_congr
  intro answer hin
  have hfreed : answer.opaqueId ∈ c.freed := List.mem_map_of_mem hin
  have hlt : answer.opaqueId < c.allocated.length :=
    (h.pointers _).mp (List.mem_append_left _ (h.ledger.mem_taken hfreed))
  simp only [callbackRun, List.getElem?_append_left hlt]

theorem Sound.commitAsync {c : CommitCallbacks Cb} (h : c.Sound)
    (topicPartitionOffsets : TopicPartitionOffsets) (cb : Option Cb) (respErr : RespErr)
    (closedErr : Option RespErr) :
    (c.commitAsync topicPartitionOffsets cb respErr closedErr).Sound := by
  have hnew := h.pointer_fresh
  have hruns := h.runs_alloc cb
  simp only [CommitCallbacks.commitAsync]
  rcases Consumer.commitAsync topicPartitionOffsets respErr c.allocated.length with
    ⟨request, _ | _⟩
  · refine ⟨h.ledger.refuse hnew, fun p => ?_, h.order, hruns⟩
    simp only [← h.pointers_alloc cb, List.mem_append, List.mem_singleton, or_assoc]
  · have hpointers (p : CallbackId) : p ∈ (c.returned ++ [c.allocated.length]) ++ c.threw ↔
        p < (c.allocated ++ [cb]).length := by
      simp only [← h.pointers_alloc cb, List.mem_append, List.mem_singleton, or_right_comm]
    have hledger := h.ledger.take hnew
    cases closedErr with
    | none =>
      refine ⟨hledger.shift ?_, hpointers, h.order, hruns⟩
      -- the new pointer is the last one pending
      show (c.pending ++ c.queue.map CommitAnswer.opaqueId ++ [c.allocated.length]).Perm
        (c.pending ++ [c.allocated.length] ++ c.queue.map CommitAnswer.opaqueId)
      rw [List.append_assoc, List.append_assoc]
      exact List.perm_append_comm.append_left c.pending
    | some err =>
      refine ⟨?_, hpointers, ?_, hruns⟩
      · rw [List.append_assoc] at hledger
        simpa [enqueue, freed] using hledger
      · show c.answered ++ [_] = c.taken ++ (c.queue ++ [_])
        rw [h.order, List.append_assoc]

theorem Sound.answer {c c' : CommitCallbacks Cb} (h : c.Sound) {answer : CommitAnswer}
    (ha : c.answer answer = some c') : c'.Sound := by
  unfold CommitCallbacks.answer at ha
  split at ha
  next hin =>
    obtain rfl := Option.some.inj ha
    refine ⟨h.ledger.shift ?_, h.pointers, ?_, h.runs⟩
    · show (c.pending ++ c.queue.map CommitAnswer.opaqueId).Perm
        (c.pending.erase answer.opaqueId ++ (c.queue ++ [answer]).map CommitAnswer.opaqueId)
      rw [List.map_append, List.map_singleton, ← List.append_assoc]
      refine ((List.perm_cons_erase hin).append_right _).trans ?_
      exact (List.perm_append_singleton answer.opaqueId _).symm
    · show c.answered ++ [answer] = c.taken ++ (c.queue ++ [answer])
      rw [h.order, List.append_assoc]
  next => simp at ha

theorem Sound.serve {c c' : CommitCallbacks Cb} (h : c.Sound) (hs : c.serve = some c') :
    c'.Sound := by
  unfold CommitCallbacks.serve at hs
  cases hq : c.queue with
  | nil => simp [hq] at hs
  | cons answer queue =>
    obtain rfl : { c with queue }.offsetCommitCallback answer = c' := by simpa [hq] using hs
    refine ⟨?_, h.pointers, ?_, ?_⟩
    · -- the callable of the first answer is freed
      have hl : Ledger c.returned c.threw
          ([answer.opaqueId] ++ (c.pending ++ queue.map CommitAnswer.opaqueId)) c.freed := by
        refine h.ledger.shift ?_
        rw [hq, List.map_cons]
        exact List.perm_middle
      simpa [offsetCommitCallback, freed] using Ledger.hand [answer.opaqueId] hl
    · show c.answered = c.taken ++ [answer] ++ queue
      rw [h.order, hq, List.append_assoc, List.singleton_append]
    · show c.runs ++ (callbackRun c.allocated answer).toList
        = (c.taken ++ [answer]).filterMap (callbackRun c.allocated)
      rw [h.runs, List.filterMap_append]
      cases hrun : callbackRun c.allocated answer with
      | none => simp [hrun]
      | some run => simp [hrun]

/-! ## §3. Commits that wait for an answer. -/

/-- A commit that is answered at once does not wait. -/
theorem commitAsync_pending_nil {c : CommitCallbacks Cb} (h : c.pending = [])
    (topicPartitionOffsets : TopicPartitionOffsets) (cb : Option Cb) (respErr : RespErr)
    {closedErr : Option RespErr} (hclosed : closedErr ≠ none) :
    (c.commitAsync topicPartitionOffsets cb respErr closedErr).pending = [] := by
  simp only [CommitCallbacks.commitAsync]
  rcases Consumer.commitAsync topicPartitionOffsets respErr c.allocated.length with
    ⟨request, _ | _⟩
  · exact h
  · cases closedErr with
    | none => exact absurd rfl hclosed
    | some err => exact h

theorem serve_eq_none {c : CommitCallbacks Cb} (h : c.serve = none) : c.queue = [] := by
  unfold CommitCallbacks.serve at h
  split at h
  next hnil => exact hnil
  next => simp at h

/-- Serving takes the first answer of the queue, and nothing from librdkafka. -/
theorem serve_cases {c c' : CommitCallbacks Cb} (h : c.serve = some c') :
    c'.pending = c.pending ∧ ∃ answer, c.queue = answer :: c'.queue := by
  unfold CommitCallbacks.serve at h
  split at h
  next => simp at h
  next answer queue hqueue =>
    obtain rfl := Option.some.inj h
    exact ⟨rfl, answer, hqueue⟩

/-- An answer moves a commit from librdkafka to the queue. -/
theorem answer_cases {c c' : CommitCallbacks Cb} {answer : CommitAnswer}
    (h : c.answer answer = some c') : answer.opaqueId ∈ c.pending ∧
      c'.pending = c.pending.erase answer.opaqueId ∧ c'.queue = c.queue ++ [answer] := by
  unfold CommitCallbacks.answer at h
  split at h
  next hin =>
    obtain rfl := Option.some.inj h
    exact ⟨hin, rfl, rfl⟩
  next => simp at h

/-- Every commit that waits can be answered. -/
theorem exists_answer {c : CommitCallbacks Cb} {answer : CommitAnswer}
    (h : answer.opaqueId ∈ c.pending) : ∃ c', c.answer answer = some c' :=
  ⟨_, if_pos h⟩

/-! ## §4. What it gives. -/

/-- No callable is freed twice and none of a `commitAsync` that threw; the callbacks run are
those freed that are not empty, each with its answer, in the order of the answers. -/
structure RunOnce (c : CommitCallbacks Cb) : Prop where
  once : c.freed.Nodup
  threw : ∀ p ∈ c.threw, p ∉ c.freed
  order : c.taken <+: c.answered
  runs : c.runs = c.taken.filterMap (callbackRun c.allocated)

/-- The callables freed are, once each, those of the `commitAsync` that returned; those of the
ones that threw are lost. -/
def Settled (c : CommitCallbacks Cb) : Prop :=
  ∀ p < c.allocated.length, c.freed.count p = if p ∈ c.threw then 0 else 1

theorem Sound.runOnce {c : CommitCallbacks Cb} (h : c.Sound) : c.RunOnce where
  once := h.ledger.handed_nodup
  threw := fun _ hp => h.ledger.not_mem_handed hp
  order := ⟨c.queue, h.order.symm⟩
  runs := h.runs

theorem Sound.settled {c : CommitCallbacks Cb} (h : c.Sound) (hpending : c.pending = [])
    (hqueue : c.queue = []) : c.Settled := by
  have hl := h.ledger
  rw [hpending, hqueue] at hl
  intro p hp
  split
  next hthrew => exact List.count_eq_zero_of_not_mem (hl.not_mem_handed hthrew)
  next hthrew =>
    have hin : p ∈ c.returned := by
      have := (h.pointers p).mpr hp
      simpa [hthrew] using this
    exact hl.mem_handed hin

end CommitCallbacks

end ModernCppKafka.Consumer
