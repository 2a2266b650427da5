/-
  ModernCppKafka.Consumer.Commit — `commit`, `commitSync` and `commitAsync`.

  The forms taking offsets and the forms committing everything stored share their code, which
  tells them apart by the map being empty.

  Main results:
    * `commit_exactly_iff`    — exactly when "commit the specified offsets" does that;
    * `commit_record_exactly` — committing a record is always exact.
-/
import ModernCppKafka.Consumer.State

namespace ModernCppKafka.Consumer

/-! ## §1. The operations. -/

/-- `enum class CommitType`. -/
inductive CommitType where
  | Sync
  | Async
  deriving DecidableEq, Repr

/-- A call of `rd_kafka_commit` or, with an offset-commit callback, of `rd_kafka_commit_queue`.
`offsets` is the list passed, `none` for a null pointer. -/
inductive CommitRequest (OffsetCommitCallback : Type) where
  | rd_kafka_commit (offsets : Option RkTopicPartitionList) (async : Bool)
  | rd_kafka_commit_queue (offsets : Option RkTopicPartitionList)
      (offsetCommitCallback : OffsetCommitCallback)
  deriving DecidableEq

def CommitRequest.offsets {Cb : Type} : CommitRequest Cb → Option RkTopicPartitionList
  | .rd_kafka_commit offsets _ => offsets
  | .rd_kafka_commit_queue offsets _ => offsets

section Operations

variable {OffsetCommitCallback : Type} (topicPartitionOffsets : TopicPartitionOffsets)
  (respErr : RespErr)

/-- A null pointer for an empty map. -/
def requestedOffsets : Option RkTopicPartitionList :=
  if topicPartitionOffsets.isEmpty then none
  else some (createRkTopicPartitionList topicPartitionOffsets)

/-- The request made, and what the caller sees when librdkafka answers `respErr`. -/
def commit (type : CommitType) :
    CommitRequest OffsetCommitCallback × Except KafkaException Unit :=
  let error := Error.ofRespErr respErr
  -- no stored offset to commit is not a mistake
  let error := if topicPartitionOffsets.isEmpty ∧ error.value = RD_KAFKA_RESP_ERR__NO_OFFSET
    then {} else error
  (.rd_kafka_commit (requestedOffsets topicPartitionOffsets) (type = .Async),
    throwIfWithError error)

def commitSync : CommitRequest OffsetCommitCallback × Except KafkaException Unit :=
  commit topicPartitionOffsets respErr .Sync

def commitAsync (offsetCommitCallback : OffsetCommitCallback) :
    CommitRequest OffsetCommitCallback × Except KafkaException Unit :=
  (.rd_kafka_commit_queue (requestedOffsets topicPartitionOffsets) offsetCommitCallback,
    throwIfWithError (Error.ofRespErr respErr))

/-- `commitSync()`. -/
def commitSyncStored : CommitRequest OffsetCommitCallback × Except KafkaException Unit :=
  commit ∅ respErr .Sync

/-- The committed offset is the received one plus 1. -/
def recordOffsets (record : ConsumerRecord) : TopicPartitionOffsets :=
  (∅ : TopicPartitionOffsets).insert record.topicPartition (record.offset + 1)

/-- `commitSync(record)`. -/
def commitSyncRecord (record : ConsumerRecord) :
    CommitRequest OffsetCommitCallback × Except KafkaException Unit :=
  commit (recordOffsets record) respErr .Sync

/-- `commitAsync(record, offsetCommitCallback)`. -/
def commitAsyncRecord (record : ConsumerRecord) (offsetCommitCallback : OffsetCommitCallback) :
    CommitRequest OffsetCommitCallback × Except KafkaException Unit :=
  commitAsync (recordOffsets record) respErr offsetCommitCallback

end Operations

/-! ## §2. What librdkafka commits. -/

/-- librdkafka commits the given list, or all it has stored when it gets a null pointer. -/
def rkCommits {Cb : Type} (stored : RkTopicPartitionList) (request : CommitRequest Cb) :
    RkTopicPartitionList :=
  request.offsets.getD stored

/-- For each partition in the map its offset is committed, and for no other anything. -/
def CommitsExactly (committed : RkTopicPartitionList) (m : TopicPartitionOffsets) : Prop :=
  ∀ tp o, (∃ e ∈ committed, e.key = tp ∧ e.offset = o) ↔ m[tp]? = some o

theorem requestedOffsets_empty : requestedOffsets ∅ = none := by
  simp [requestedOffsets]

theorem requestedOffsets_of_ne {m : TopicPartitionOffsets} (h : m ≠ ∅) :
    requestedOffsets m = some (createRkTopicPartitionList m) := by
  have : m.isEmpty = false := Std.ExtTreeMap.isEmpty_eq_false_iff.mpr h
  simp [requestedOffsets, this]

/-- With NUL-free topics the entries arrive as they are. -/
theorem commitsExactly_of_nulFree {m : TopicPartitionOffsets} (h : m ≠ ∅)
    (hnul : NulFreeTopics m) (stored : RkTopicPartitionList) :
    CommitsExactly ((requestedOffsets m).getD stored) m := by
  intro tp o
  rw [requestedOffsets_of_ne h, Option.getD_some]
  constructor
  · rintro ⟨e, he, rfl, rfl⟩
    exact (mem_createRk_of_nulFree hnul).mp he
  · intro htp
    have hin : tp ∈ m := Std.ExtTreeMap.mem_iff_isSome_getElem?.mpr (by simp [htp])
    have hkey : RkTopicPartition.key ⟨c_str tp.first, tp.second, o⟩ = tp := by
      rw [RkTopicPartition.key, c_str_of_nulFree (hnul tp hin)]
    exact ⟨_, (mem_createRk_of_nulFree hnul).mpr (by rwa [hkey]), hkey, rfl⟩

/-- A partition librdkafka commits for has a NUL-free topic. -/
theorem nulFree_of_commitsExactly {committed : RkTopicPartitionList} {m : TopicPartitionOffsets}
    (h : CommitsExactly committed m) : NulFreeTopics m := by
  intro tp hin
  obtain ⟨e, -, rfl, -⟩ := (h tp m[tp]).mpr (Std.ExtTreeMap.getElem?_eq_some_getElem hin)
  exact e.topic.2

/-- The request for a map commits exactly the map. -/
theorem requested_exactly_iff (m : TopicPartitionOffsets) (stored : RkTopicPartitionList) :
    CommitsExactly ((requestedOffsets m).getD stored) m ↔
      NulFreeTopics m ∧ (m ≠ ∅ ∨ stored = []) := by
  by_cases hm : m = ∅
  · subst hm
    have hnul : NulFreeTopics ∅ := by simp [NulFreeTopics]
    simp only [requestedOffsets_empty, Option.getD_none, hnul, ne_eq, not_true_eq_false, false_or,
      true_and]
    constructor
    · intro h
      -- anything stored is committed though the map does not name it
      refine List.eq_nil_iff_forall_not_mem.mpr fun e he => ?_
      simpa using (h e.key e.offset).mp ⟨e, he, rfl, rfl⟩
    · rintro rfl tp o
      simp
  · refine ⟨fun h => ⟨nulFree_of_commitsExactly h, .inl hm⟩, fun h => ?_⟩
    exact commitsExactly_of_nulFree hm h.1 stored

/-- **Committing specified offsets commits exactly these if and only if** their topics are C
strings and, should none be specified, nothing is stored. -/
theorem commit_exactly_iff {OffsetCommitCallback : Type} (m : TopicPartitionOffsets)
    (stored : RkTopicPartitionList) (cb : OffsetCommitCallback) (respErr : RespErr) :
    (CommitsExactly (rkCommits stored
        (commitSync m respErr : CommitRequest OffsetCommitCallback × _).1) m ↔
      NulFreeTopics m ∧ (m ≠ ∅ ∨ stored = [])) ∧
    (CommitsExactly (rkCommits stored (commitAsync m respErr cb).1) m ↔
      NulFreeTopics m ∧ (m ≠ ∅ ∨ stored = [])) :=
  ⟨requested_exactly_iff m stored, requested_exactly_iff m stored⟩

/-- Committing no offsets commits the record 7 of `t-0` that was polled and may be unprocessed. -/
theorem empty_commit_commits_stored :
    ¬ ∀ (m : TopicPartitionOffsets) (stored : RkTopicPartitionList) (respErr : RespErr),
      CommitsExactly (rkCommits stored (commitSync m respErr : CommitRequest Unit × _).1) m ∧
        CommitsExactly (rkCommits stored (commitAsync m respErr ()).1) m := by
  intro h
  have hsync := (h ∅ [⟨c_str "t", 0, 8⟩] RD_KAFKA_RESP_ERR_NO_ERROR).1
  have := (hsync ⟨"t", 0⟩ 8).mp ⟨⟨c_str "t", 0, 8⟩, by decide +kernel, by decide +kernel, rfl⟩
  simp at this

/-- Committing a record commits one past it, for its partition only. -/
theorem commit_record_exactly {OffsetCommitCallback : Type} (record : ConsumerRecord)
    (stored : RkTopicPartitionList) (cb : OffsetCommitCallback) (respErr : RespErr) :
    CommitsExactly (rkCommits stored
        (commitSyncRecord respErr record : CommitRequest OffsetCommitCallback × _).1)
      (recordOffsets record) ∧
    CommitsExactly (rkCommits stored (commitAsyncRecord respErr record cb).1)
      (recordOffsets record) := by
  have hne : recordOffsets record ≠ ∅ := by simp [recordOffsets]
  have hnul : NulFreeTopics (recordOffsets record) := by
    intro tp htp
    obtain rfl : record.topicPartition = tp := by simpa [recordOffsets] using htp
    exact record.topic.2
  exact ⟨commitsExactly_of_nulFree hne hnul stored, commitsExactly_of_nulFree hne hnul stored⟩

end ModernCppKafka.Consumer
