/-
  ModernCppKafka.Consumer.CommitLog — the whole commit log of a session.

  A session is a row of `poll`s that fetch a batch each, and a `close`, with every commit
  accepted.  `Follows` is the log it should leave: each batch is preceded by the asynchronous
  commit of the batch before it, and the last one is followed by a synchronous commit.

  Main results:
    * `session_follows` — the log is that;
    * `session_commits` — and so in the end one past the last record of every partition is
      committed.
-/
import ModernCppKafka.Consumer.AutoCommit

namespace ModernCppKafka.Consumer

open ModernCppKafka.Lib.LastWriter

variable {Cb : Type}

/-! ## §1. The log of a session. -/

/-- Polls fetching the batches, one each, and a close. -/
def session (batches : List (List ConsumerRecord)) : List Call :=
  batches.map (fun batch => pollOk (.ok batch)) ++ [.close RD_KAFKA_RESP_ERR_NO_ERROR]

/-- The commit of a batch: nothing for an empty one, else one request for its partitions, each
once and one past its last offset in the batch. -/
def CommitsBatch (batch : List ConsumerRecord) (async : Bool) (events : List Event) : Prop :=
  if batch = [] then events = []
  else ∃ offsets, events = [.commit (.rd_kafka_commit (some offsets) async)] ∧
    (offsets.map RkTopicPartition.key).Nodup ∧
    ∀ e, e ∈ offsets ↔ ∃ r ∈ lastRecord e.key batch, e.offset = r.offset + 1

/-- With `last` returned already: each poll commits the batch before and returns its own, and
the close commits the last one. -/
def Follows (last : List ConsumerRecord) : List (List ConsumerRecord) → List Event → Prop
  | [], log => CommitsBatch last false log
  | batch :: batches, log => ∃ commits rest, log = commits ++ .returned batch :: rest ∧
      CommitsBatch last true commits ∧ Follows batch batches rest

/-- The entries committed, in order. -/
def committedEntries (log : List Event) : RkTopicPartitionList :=
  log.flatMap fun
    | .commit request => request.offsets.getD []
    | .returned _ => []

/-- The offset committed last for `tp`. -/
def committedOffset (tp : TopicPartition) (log : List Event) : Option Offset :=
  (lastFor RkTopicPartition.key tp (committedEntries log)).map (·.offset)

/-! ## §2. One batch. -/

/-- The list made from a map of NUL-free topics names each partition once. -/
theorem nodup_createRk {m : TopicPartitionOffsets} (h : NulFreeTopics m) :
    ((createRkTopicPartitionList m).map RkTopicPartition.key).Nodup := by
  have hkeys : (createRkTopicPartitionList m).map RkTopicPartition.key = m.toList.map Prod.fst := by
    rw [createRkTopicPartitionList, List.map_map]
    apply List.map_congr_left
    rintro ⟨tp, o⟩ hmem
    have htp := Std.ExtTreeMap.mem_toList_iff_getElem?_eq_some.mp hmem
    have hin : tp ∈ m := Std.ExtTreeMap.mem_iff_isSome_getElem?.mpr (by simp [htp])
    exact TopicPartition.ext (c_str_of_nulFree (h tp hin)) rfl
  rw [hkeys, List.Nodup, List.pairwise_map]
  exact Std.ExtTreeMap.distinct_keys_toList.imp fun hne heq => hne (compare_eq_iff_eq.mpr heq)

theorem lastOffsets_nil : lastOffsets [] = ∅ := rfl

/-- What a call commits of the batch stored, when librdkafka accepts it. -/
theorem commitsBatch_stored (batch : List ConsumerRecord) (type : CommitType) :
    CommitsBatch batch (type = .Async)
      (if lastOffsets batch = ∅ then [] else [storedCommit (lastOffsets batch) type]) := by
  unfold CommitsBatch
  by_cases hnil : batch = []
  · rw [if_pos hnil, hnil, if_pos lastOffsets_nil]
  · rw [if_neg hnil, if_neg fun h => hnil (lastOffsets_eq_empty h)]
    refine ⟨_, rfl, nodup_createRk ?_, fun e => mem_batchCommit⟩
    intro tp hin
    exact nulFree_lastOffsets batch tp (by simpa [incremented] using hin)

theorem committedOffset_append (tp : TopicPartition) (log log' : List Event) :
    committedOffset tp (log ++ log') = (committedOffset tp log').or (committedOffset tp log) := by
  rw [committedOffset, committedEntries, List.flatMap_append, lastFor_append, Option.map_or]
  rfl

/-- The commit of a batch leaves its partitions one past their last records. -/
theorem CommitsBatch.committedOffset_eq {batch : List ConsumerRecord} {async : Bool}
    {events : List Event} (h : CommitsBatch batch async events) (tp : TopicPartition) :
    committedOffset tp events = (lastRecord tp batch).map fun r => r.offset + 1 := by
  unfold CommitsBatch at h
  split at h
  next hnil =>
    rw [h, hnil]
    rfl
  next =>
    obtain ⟨offsets, rfl, -, hmem⟩ := h
    rw [committedOffset, show committedEntries [.commit (.rd_kafka_commit (some offsets) async)]
      = offsets by simp [committedEntries, CommitRequest.offsets]]
    cases hlast : lastRecord tp batch with
    | none =>
      -- a partition without a record has no entry
      rw [lastFor_eq_none.mpr fun e he htp => ?_]
      · rfl
      · obtain ⟨r, hr, -⟩ := (hmem e).mp he
        rw [htp, hlast] at hr
        simp at hr
    | some r =>
      -- the partition has an entry, and whichever it is, it is one past `r`
      obtain rfl : r.topicPartition = tp := key_of_lastFor hlast
      have hr : (⟨r.topic, r.partition, r.offset + 1⟩ : RkTopicPartition) ∈ offsets :=
        (hmem _).mpr ⟨r, hlast, rfl⟩
      obtain ⟨e, he⟩ := Option.isSome_iff_exists.mp
        (lastFor_isSome_of_mem RkTopicPartition.key hr)
      obtain ⟨r', hr', hoff⟩ := (hmem e).mp (mem_of_lastFor he)
      rw [key_of_lastFor he] at hr'
      obtain rfl : r = r' := Option.some.inj (hlast.symm.trans hr')
      rw [show lastFor RkTopicPartition.key r.topicPartition offsets = some e from he,
        Option.map_some, Option.map_some, hoff]

/-! ## §3. Every session. -/

/-- What follows the log commits up to the last record of every partition. -/
theorem Follows.committedOffset_eq {last : List ConsumerRecord}
    {batches : List (List ConsumerRecord)} {log : List Event} (h : Follows last batches log)
    (tp : TopicPartition) : committedOffset tp log
      = (lastRecord tp (last ++ batches.flatten)).map fun r => r.offset + 1 := by
  induction batches generalizing last log with
  | nil => simpa using CommitsBatch.committedOffset_eq h tp
  | cons batch batches ih =>
    obtain ⟨commits, rest, rfl, hcommits, hrest⟩ := h
    have hrest' : committedOffset tp (.returned batch :: rest)
        = (lastRecord tp (batch ++ batches.flatten)).map fun r => r.offset + 1 :=
      (ih hrest : committedOffset tp rest = _)
    have hlast : lastRecord tp (last ++ (batch ++ batches.flatten))
        = (lastRecord tp (batch ++ batches.flatten)).or (lastRecord tp last) := lastFor_append ..
    rw [committedOffset_append, hcommits.committedOffset_eq, hrest', ← Option.map_or, ← hlast,
      List.flatten_cons]

/-- The rest of a session, from the batch returned last. -/
theorem foldl_session {batches : List (List ConsumerRecord)} {last : List ConsumerRecord}
    {s : KafkaConsumer Cb × List Event} (hauto : s.1.enableAutoCommit = true)
    (hstored : s.1.offsetsToStore = lastOffsets last) :
    ∃ more, ((session batches).foldl step s).2 = s.2 ++ more ∧ Follows last batches more := by
  induction batches generalizing last s with
  | nil =>
    have hstep : step s (.close RD_KAFKA_RESP_ERR_NO_ERROR) = _ :=
      step_of_not_fails hauto fun h => h.2 rfl
    rw [hstored] at hstep
    refine ⟨_, ?_, commitsBatch_stored last .Sync⟩
    rw [session, List.map_nil, List.nil_append, List.foldl_cons, List.foldl_nil, hstep]
    exact List.append_nil _
  | cons batch batches ih =>
    have hstep : step s (pollOk (.ok batch)) = _ := step_of_not_fails hauto fun h => h.2 rfl
    have hreturned : returnedRecords (pollOk (.ok batch)).events = batch := by
      simp [pollOk, Call.events, returnedRecords]
    rw [hstored, hreturned] at hstep
    -- the poll commits `last` and stores `batch`; the rest follows from there
    have hauto' : (step s (pollOk (.ok batch))).1.enableAutoCommit = true := by
      rw [hstep]
      exact hauto
    have hstored' : (step s (pollOk (.ok batch))).1.offsetsToStore = lastOffsets batch := by
      rw [hstep]
    obtain ⟨more, hmore, hfollows⟩ := ih hauto' hstored'
    refine ⟨_, ?_, _, more, rfl, commitsBatch_stored last .Async, hfollows⟩
    have hsession : session (batch :: batches) = pollOk (.ok batch) :: session batches := rfl
    rw [hsession, List.foldl_cons, hmore, hstep]
    simp [pollOk, Call.events, Call.type]

/-- The log of a session. -/
theorem session_follows (batches : List (List ConsumerRecord)) :
    Follows [] batches
      ((session batches).foldl step (start : KafkaConsumer Cb × List Event)).2 := by
  have hstored : (start : KafkaConsumer Cb × List Event).1.offsetsToStore = lastOffsets [] := rfl
  obtain ⟨more, hmore, hfollows⟩ := foldl_session rfl hstored
  rw [hmore]
  exact hfollows

/-- **Auto-commit loses nothing**: in every session each poll commits, before it fetches, exactly
the batch before it, the close commits the last batch, and in the end the committed offset of
every partition is one past its last record (none, if it delivered no record). -/
theorem session_commits (batches : List (List ConsumerRecord)) :
    Follows [] batches
      ((session batches).foldl step (start : KafkaConsumer Cb × List Event)).2 ∧
    ∀ tp, committedOffset tp
        ((session batches).foldl step (start : KafkaConsumer Cb × List Event)).2
      = (lastRecord tp batches.flatten).map fun r => r.offset + 1 :=
  ⟨session_follows batches, fun tp => (session_follows batches).committedOffset_eq tp⟩

end ModernCppKafka.Consumer
