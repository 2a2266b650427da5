/-
  ModernCppKafka.Consumer.AutoCommit — what `poll` and `close` commit on their own.

  With "enable.auto.commit" a `poll` first commits the offsets of the batch the poll before it
  returned, and stores those of its own.  `step` makes one call and writes down, in the order
  they happen, the commits requested of librdkafka and the batches returned to the user.

  Main results:
    * `commits_last_iff`      — commits stay one past the last record exactly when no call
      follows one whose commit failed;
    * `commits_delivered_iff` — with error records among the batches, commits stay within what
      was delivered exactly when the error records end no partition's batch early or late.
-/
import ModernCppKafka.Consumer.Commit
import ModernCppKafka.Lib.Run

namespace ModernCppKafka.Consumer

open ModernCppKafka.Lib.LastWriter
open ModernCppKafka.Lib.Run

variable {Cb : Type}

/-! ## §1. The operations. -/

/-- `++o.second` for every entry. -/
def incremented (offsetsToStore : TopicPartitionOffsets) : TopicPartitionOffsets :=
  offsetsToStore.map fun _ o => o + 1

/-- The last offset of each partition in a batch. -/
def lastOffsets (records : List ConsumerRecord) : TopicPartitionOffsets :=
  store ConsumerRecord.topicPartition ConsumerRecord.offset records ∅

namespace KafkaConsumer

/-- The consumer afterwards, the commits requested, and whether an exception is thrown when
librdkafka answers the commit with `respErr`. -/
def commitStoredOffsetsIfNecessary (q : KafkaConsumer Cb) (type : CommitType) (respErr : RespErr) :
    KafkaConsumer Cb × List (CommitRequest Empty) × Except KafkaException Unit :=
  if q.enableAutoCommit ∧ ¬ q.offsetsToStore.isEmpty then
    let q := { q with offsetsToStore := incremented q.offsetsToStore }
    match commit q.offsetsToStore respErr type with
    -- the exception leaves the incremented offsets behind
    | (request, .error e) => (q, [request], .error e)
    | (request, .ok ()) => ({ q with offsetsToStore := ∅ }, [request], .ok ())
  else (q, [], .ok ())

def storeOffsetsIfNecessary (q : KafkaConsumer Cb) (records : List ConsumerRecord) :
    KafkaConsumer Cb :=
  if q.enableAutoCommit then
    { q with offsetsToStore :=
        store ConsumerRecord.topicPartition ConsumerRecord.offset records q.offsetsToStore }
  else q

/-- `fetched` is what `rd_kafka_consume_batch_queue` yields: a batch, or a failure. -/
def poll (q : KafkaConsumer Cb) (respErr : RespErr)
    (fetched : Except RespErr (List ConsumerRecord)) :
    KafkaConsumer Cb × List (CommitRequest Empty) × Except KafkaException (List ConsumerRecord) :=
  match q.commitStoredOffsetsIfNecessary .Async respErr with
  | (q, requests, .error e) => (q, requests, .error e)
  | (q, requests, .ok ()) =>
    match fetched with
    | .error lastError => (q, requests, .error (.ofError (.ofRespErr lastError)))
    | .ok records => (q.storeOffsetsIfNecessary records, requests, .ok records)

/-- The commit `close` makes; it catches the exception and logs it. -/
def close (q : KafkaConsumer Cb) (respErr : RespErr) :
    KafkaConsumer Cb × List (CommitRequest Empty) :=
  match q.commitStoredOffsetsIfNecessary .Sync respErr with
  | (q, requests, _) => (q, requests)

end KafkaConsumer

/-! ## §2. Runs. -/

/-- A call, with librdkafka's answers to it. -/
inductive Call where
  | poll (respErr : RespErr) (fetched : Except RespErr (List ConsumerRecord))
  | close (respErr : RespErr)

def Call.respErr : Call → RespErr
  | .poll respErr _ => respErr
  | .close respErr => respErr

inductive Event where
  | commit (request : CommitRequest Empty)
  | returned (records : List ConsumerRecord)
  deriving DecidableEq

def step (s : KafkaConsumer Cb × List Event) : Call → KafkaConsumer Cb × List Event
  | .poll respErr fetched =>
    match s.1.poll respErr fetched with
    | (q, requests, .ok records) => (q, s.2 ++ requests.map .commit ++ [.returned records])
    | (q, requests, .error _) => (q, s.2 ++ requests.map .commit)
  | .close respErr =>
    match s.1.close respErr with
    | (q, requests) => (q, s.2 ++ requests.map .commit)

/-- The records the log returned, in order. -/
def returnedRecords (log : List Event) : List ConsumerRecord :=
  log.flatMap fun
    | .returned records => records
    | .commit _ => []

/-- The last record of `tp` among `records`. -/
abbrev lastRecord (tp : TopicPartition) (records : List ConsumerRecord) : Option ConsumerRecord :=
  lastFor ConsumerRecord.topicPartition tp records

/-- Every commit is one past the last record of the partition returned before it. -/
def CommitsLast : List Event → Prop :=
  AtEach fun pre event => ∀ request, event = .commit request →
    ∀ offsets ∈ request.offsets, ∀ e ∈ offsets,
      ∃ r ∈ lastRecord e.key (returnedRecords pre), e.offset = r.offset + 1

/-- Something is stored, and librdkafka refuses to commit it. -/
def CommitFails (q : KafkaConsumer Cb) (c : Call) : Prop :=
  q.offsetsToStore ≠ ∅ ∧ c.respErr ≠ RD_KAFKA_RESP_ERR_NO_ERROR

/-- A call whose commit fails is the last. -/
def NoneAfterFailed : KafkaConsumer Cb × List Event → List Call → Prop
  | _, [] => True
  | s, c :: cs => (CommitFails s.1 c → cs = []) ∧ NoneAfterFailed (step s c) cs

/-! ## §3. One call. -/

section Maps

variable {m : TopicPartitionOffsets}

@[simp] theorem getElem?_incremented (m : TopicPartitionOffsets) (tp : TopicPartition) :
    (incremented m)[tp]? = m[tp]?.map (· + 1) := by
  simp [incremented]

theorem incremented_ne (h : m ≠ ∅) : incremented m ≠ ∅ := by
  intro heq
  refine h (Std.ExtTreeMap.ext_getElem? fun tp => ?_)
  have := congrArg (fun m : TopicPartitionOffsets => m[tp]?) heq
  simpa using this

theorem exists_getElem?_of_ne (h : m ≠ ∅) :
    ∃ (tp : TopicPartition) (o : Offset), m[tp]? = some o := by
  obtain ⟨⟨tp, o⟩, hmem⟩ := List.exists_mem_of_ne_nil _
    (mt Std.ExtTreeMap.toList_eq_nil_iff.mp h)
  exact ⟨tp, o, Std.ExtTreeMap.mem_toList_iff_getElem?_eq_some.mp hmem⟩

end Maps

/-- What is requested for a non-empty map, and how the answer is taken. -/
theorem commit_of_ne {m : TopicPartitionOffsets} (h : m ≠ ∅) (respErr : RespErr)
    (type : CommitType) :
    (commit m respErr type : CommitRequest Empty × _) =
      (.rd_kafka_commit (some (createRkTopicPartitionList m)) (type = .Async),
        throwIfWithError (.ofRespErr respErr)) := by
  have hempty : m.isEmpty = false := Std.ExtTreeMap.isEmpty_eq_false_iff.mpr h
  simp [commit, requestedOffsets, hempty]

/-- The commit of a non-empty map of stored offsets. -/
def storedCommit (m : TopicPartitionOffsets) (type : CommitType) : Event :=
  .commit (.rd_kafka_commit (some (createRkTopicPartitionList (incremented m))) (type = .Async))

/-- What such a commit passes to librdkafka. -/
theorem offsets_of_storedCommit {m : TopicPartitionOffsets} {type : CommitType}
    {request : CommitRequest Empty} {offsets : RkTopicPartitionList}
    (h : storedCommit m type = .commit request) (ho : offsets ∈ request.offsets) :
    offsets = createRkTopicPartitionList (incremented m) := by
  obtain rfl : CommitRequest.rd_kafka_commit _ _ = request := by simpa [storedCommit] using h
  simpa [CommitRequest.offsets] using ho.symm

def Call.type : Call → CommitType
  | .poll .. => .Async
  | .close _ => .Sync

/-- What the call returns when its commit does not fail. -/
def Call.events : Call → List Event
  | .poll _ (.ok records) => [.returned records]
  | _ => []

/-- A failing commit leaves the incremented offsets and returns nothing. -/
theorem step_of_fails {q : KafkaConsumer Cb} {log : List Event} {c : Call}
    (hauto : q.enableAutoCommit = true) (h : CommitFails q c) :
    step (q, log) c = ({ q with offsetsToStore := incremented q.offsetsToStore },
      log ++ [storedCommit q.offsetsToStore c.type]) := by
  obtain ⟨hne, herr⟩ := h
  have hempty : q.offsetsToStore.isEmpty = false := Std.ExtTreeMap.isEmpty_eq_false_iff.mpr hne
  cases c <;>
    simp_all [step, KafkaConsumer.poll, KafkaConsumer.close, Call.respErr, Call.type,
      KafkaConsumer.commitStoredOffsetsIfNecessary, commit_of_ne (incremented_ne hne),
      throwIfWithError_ofRespErr, storedCommit]

/-- Otherwise the stored offsets are committed, if any, and those of the batch replace them. -/
theorem step_of_not_fails {q : KafkaConsumer Cb} {log : List Event} {c : Call}
    (hauto : q.enableAutoCommit = true) (h : ¬ CommitFails q c) :
    step (q, log) c =
      ({ q with offsetsToStore := lastOffsets (returnedRecords c.events) },
        log ++ (if q.offsetsToStore = ∅ then [] else [storedCommit q.offsetsToStore c.type])
          ++ c.events) := by
  by_cases hne : q.offsetsToStore = ∅
  · have hself : { q with enableAutoCommit := true, offsetsToStore := ∅ } = q := by
      cases q
      simp_all
    rcases c with ⟨respErr, _ | records⟩ | respErr <;>
      simp [step, KafkaConsumer.poll, KafkaConsumer.close, hne, hauto, hself, Call.events,
        KafkaConsumer.commitStoredOffsetsIfNecessary, KafkaConsumer.storeOffsetsIfNecessary,
        returnedRecords, lastOffsets, store]
  · have herr : c.respErr = RD_KAFKA_RESP_ERR_NO_ERROR := by
      by_contra herr
      exact h ⟨hne, herr⟩
    have hempty : q.offsetsToStore.isEmpty = false := Std.ExtTreeMap.isEmpty_eq_false_iff.mpr hne
    rcases c with ⟨respErr, _ | records⟩ | respErr <;>
      obtain rfl : respErr = RD_KAFKA_RESP_ERR_NO_ERROR := herr <;>
      simp [step, KafkaConsumer.poll, KafkaConsumer.close, hne, hauto, hempty, Call.events,
        Call.type, KafkaConsumer.commitStoredOffsetsIfNecessary,
        KafkaConsumer.storeOffsetsIfNecessary, commit_of_ne (incremented_ne hne),
        throwIfWithError_ofRespErr, returnedRecords, lastOffsets, store, storedCommit]

/-! ## §4. Failing commits. -/

@[simp] theorem returnedRecords_append (log log' : List Event) :
    returnedRecords (log ++ log') = returnedRecords log ++ returnedRecords log' :=
  List.flatMap_append

@[simp] theorem returnedRecords_stored (m : TopicPartitionOffsets) (type : CommitType) :
    returnedRecords [storedCommit m type] = [] := rfl

theorem getElem?_lastOffsets (records : List ConsumerRecord) (tp : TopicPartition) :
    (lastOffsets records)[tp]? = (lastRecord tp records).map ConsumerRecord.offset := by
  rw [lastOffsets, getElem?_store, Std.ExtTreeMap.getElem?_empty, Option.or_none]

/-- A partition with a record has a last one. -/
theorem exists_lastRecord {records : List ConsumerRecord} {r : ConsumerRecord}
    (hr : r ∈ records) : ∃ l, lastRecord r.topicPartition records = some l ∧
      l ∈ records ∧ l.topicPartition = r.topicPartition := by
  obtain ⟨l, hl⟩ := Option.isSome_iff_exists.mp
    (lastFor_isSome_of_mem ConsumerRecord.topicPartition hr)
  exact ⟨l, hl, mem_of_lastFor hl, key_of_lastFor hl⟩

theorem lastOffsets_eq_empty {records : List ConsumerRecord} (h : lastOffsets records = ∅) :
    records = [] := by
  refine List.eq_nil_iff_forall_not_mem.mpr fun r hr => ?_
  obtain ⟨l, hl, -⟩ := exists_lastRecord hr
  have hget := getElem?_lastOffsets records r.topicPartition
  rw [h, hl] at hget
  simp at hget

/-- What is stored are the last offsets returned. -/
structure Fresh (s : KafkaConsumer Cb × List Event) : Prop where
  auto : s.1.enableAutoCommit = true
  stored : ∀ tp, ∀ o ∈ s.1.offsetsToStore[tp]?,
    ∃ r ∈ lastRecord tp (returnedRecords s.2), r.offset = o

/-- A partition something is stored for has a topic librdkafka named. -/
theorem Fresh.nulFree {s : KafkaConsumer Cb × List Event} (hs : Fresh s) :
    NulFreeTopics s.1.offsetsToStore := by
  intro tp hin
  obtain ⟨r, hr, -⟩ := hs.stored tp _ (Std.ExtTreeMap.getElem?_eq_some_getElem hin)
  rw [← key_of_lastFor hr]
  exact r.topic.2

/-- The entries of the commit of a map of NUL-free topics. -/
theorem mem_storedCommit {m : TopicPartitionOffsets} (h : NulFreeTopics m)
    {e : RkTopicPartition} :
    e ∈ createRkTopicPartitionList (incremented m) ↔ ∃ o ∈ m[e.key]?, e.offset = o + 1 := by
  have hnul : NulFreeTopics (incremented m) := by
    intro tp hin
    exact h tp (by simpa [incremented] using hin)
  rw [mem_createRk_of_nulFree hnul, getElem?_incremented, Option.map_eq_some_iff]
  simp only [Option.mem_def, eq_comm]

/-- From fresh offsets the commit is one past the last records. -/
theorem Fresh.commitsLast {s : KafkaConsumer Cb × List Event} (hs : Fresh s) (type : CommitType)
    (h : CommitsLast s.2) : CommitsLast (s.2 ++ [storedCommit s.1.offsetsToStore type]) := by
  refine atEach_snoc.mpr ⟨h, fun request heq offsets hoffsets e he => ?_⟩
  obtain rfl := offsets_of_storedCommit heq hoffsets
  obtain ⟨o, ho, heo⟩ := (mem_storedCommit hs.nulFree).mp he
  obtain ⟨r, hr, rfl⟩ := hs.stored _ o ho
  exact ⟨r, hr, heo⟩

theorem commitsLast_returned {log : List Event} (records : List ConsumerRecord)
    (h : CommitsLast log) : CommitsLast (log ++ [.returned records]) :=
  atEach_snoc.mpr ⟨h, fun _ heq => by simp at heq⟩

theorem Call.events_cases (c : Call) :
    c.events = [] ∨ ∃ records, c.events = [.returned records] := by
  rcases c with ⟨_, _ | records⟩ | _
  · exact .inl rfl
  · exact .inr ⟨records, rfl⟩
  · exact .inl rfl

/-- A call whose commit does not fail leaves fresh offsets and a log in order. -/
theorem Fresh.step {s : KafkaConsumer Cb × List Event} (hs : Fresh s) (h : CommitsLast s.2)
    {c : Call} (hc : ¬ CommitFails s.1 c) : Fresh (step s c) ∧ CommitsLast (step s c).2 := by
  rw [show Consumer.step s c = _ from step_of_not_fails hs.auto hc]
  refine ⟨⟨hs.auto, fun tp o ho => ?_⟩, ?_⟩
  · obtain ⟨r, hr, rfl⟩ : ∃ r, lastRecord tp (returnedRecords c.events) = some r ∧ r.offset = o :=
      Option.map_eq_some_iff.mp ((getElem?_lastOffsets _ tp).symm.trans ho)
    refine ⟨r, ?_, rfl⟩
    simp only [returnedRecords_append, lastRecord, lastFor_append, Option.mem_def]
    rw [show lastFor _ tp (returnedRecords c.events) = some r from hr, Option.some_or]
  · have hcommitted : CommitsLast (s.2 ++ if s.1.offsetsToStore = ∅ then []
        else [storedCommit s.1.offsetsToStore c.type]) := by
      split
      · rwa [List.append_nil]
      · exact hs.commitsLast c.type h
    rcases c.events_cases with hev | ⟨records, hev⟩
    · rwa [hev, List.append_nil]
    · rw [hev]
      exact commitsLast_returned records hcommitted

/-- A call adds events to the log. -/
theorem step_log (s : KafkaConsumer Cb × List Event) (c : Call)
    (hauto : s.1.enableAutoCommit = true) :
    (step s c).1.enableAutoCommit = true ∧ ∃ more, (step s c).2 = s.2 ++ more := by
  by_cases hc : CommitFails s.1 c
  · rw [show step s c = _ from step_of_fails hauto hc]
    exact ⟨hauto, _, rfl⟩
  · rw [show step s c = _ from step_of_not_fails hauto hc]
    exact ⟨hauto, _, List.append_assoc _ _ _⟩

theorem foldl_step_log (cs : List Call) (s : KafkaConsumer Cb × List Event)
    (hauto : s.1.enableAutoCommit = true) : ∃ more, (cs.foldl step s).2 = s.2 ++ more := by
  induction cs generalizing s with
  | nil => exact ⟨[], (List.append_nil _).symm⟩
  | cons c cs ih =>
    obtain ⟨hauto', more, hmore⟩ := step_log s c hauto
    obtain ⟨more', hmore'⟩ := ih (step s c) hauto'
    exact ⟨more ++ more', by rw [List.foldl_cons, hmore', hmore, List.append_assoc]⟩

/-- A call after one whose commit failed passes offsets two past the last records. -/
theorem not_commitsLast_after_fails {s : KafkaConsumer Cb × List Event} (hs : Fresh s)
    {c : Call} (hc : CommitFails s.1 c) (c' : Call) :
    ¬ CommitsLast (step (step s c) c').2 := by
  rw [show step s c = _ from step_of_fails hs.auto hc]
  set q' : KafkaConsumer Cb := { s.1 with offsetsToStore := incremented s.1.offsetsToStore }
  set log' := s.2 ++ [storedCommit s.1.offsetsToStore c.type]
  have hne : q'.offsetsToStore ≠ ∅ := incremented_ne hc.1
  -- whatever librdkafka answers, the commit is requested
  have hlog : ∃ more, (step (q', log') c').2 =
      log' ++ [storedCommit q'.offsetsToStore c'.type] ++ more := by
    by_cases hc' : CommitFails q' c'
    · rw [step_of_fails (q := q') hs.auto hc']
      exact ⟨[], (List.append_nil _).symm⟩
    · rw [step_of_not_fails (q := q') hs.auto hc', if_neg hne]
      exact ⟨_, rfl⟩
  obtain ⟨more, hmore⟩ := hlog
  rw [hmore]
  intro hall
  obtain ⟨-, hbad⟩ := atEach_snoc.mp hall.of_append
  -- some partition is stored; its entry is one too high
  obtain ⟨tp, o, ho⟩ := exists_getElem?_of_ne hc.1
  obtain ⟨r, hr, rfl⟩ := hs.stored tp o ho
  have htp : r.topicPartition = tp := key_of_lastFor hr
  set e : RkTopicPartition := ⟨r.topic, r.partition, r.offset + 1 + 1⟩
  have hnul : NulFreeTopics q'.offsetsToStore := by
    intro tp hin
    exact hs.nulFree tp (by simpa [q', incremented] using hin)
  have he : e ∈ createRkTopicPartitionList (incremented q'.offsetsToStore) := by
    refine (mem_storedCommit hnul).mpr ⟨r.offset + 1, ?_, rfl⟩
    rw [show e.key = tp from htp]
    simp [q', ho]
  obtain ⟨r', hr', heq⟩ := hbad _ rfl _ rfl e he
  have hlast : lastRecord tp (returnedRecords log') = some r := by
    simpa [log'] using hr
  obtain rfl : r = r' := by
    rw [show e.key = tp from htp, hlast] at hr'
    simpa using hr'
  exact Offset.add_one_ne (r.offset + 1) heq

theorem commits_last_iff_of_fresh (cs : List Call) (s : KafkaConsumer Cb × List Event)
    (hs : Fresh s) (h : CommitsLast s.2) :
    CommitsLast (cs.foldl step s).2 ↔ NoneAfterFailed s cs := by
  -- as long as no commit fails, `Fresh` carries the induction; the first failure decides
  induction cs generalizing s with
  | nil => exact iff_of_true h trivial
  | cons c cs ih =>
    rw [List.foldl_cons, NoneAfterFailed]
    by_cases hc : CommitFails s.1 c
    · cases cs with
      | nil =>
        refine iff_of_true ?_ ⟨fun _ => rfl, trivial⟩
        rw [List.foldl_nil, show step s c = _ from step_of_fails hs.auto hc]
        exact hs.commitsLast c.type h
      | cons c' cs =>
        -- what is logged later does not take the wrong commit back
        refine iff_of_false (fun hall => ?_) (by simp [hc])
        obtain ⟨hauto, -⟩ := step_log s c hs.auto
        obtain ⟨hauto', -⟩ := step_log (step s c) c' hauto
        obtain ⟨more, hmore⟩ := foldl_step_log cs (step (step s c) c') hauto'
        rw [List.foldl_cons, hmore] at hall
        exact not_commitsLast_after_fails hs hc c' hall.of_append
    · obtain ⟨hs', h'⟩ := hs.step h hc
      rw [ih _ hs' h']
      simp [hc]

/-- A consumer no call has been made on, and the empty log. -/
def start : KafkaConsumer Cb × List Event := ({}, [])

theorem fresh_start : Fresh (start : KafkaConsumer Cb × List Event) :=
  ⟨rfl, by simp [start]⟩

/-- **Auto-commit stays one past the last record returned exactly when** no call follows one
whose commit failed: the offsets that call leaves behind are incremented once more. -/
theorem commits_last_iff (cs : List Call) :
    CommitsLast (cs.foldl step (start : KafkaConsumer Cb × List Event)).2 ↔
      NoneAfterFailed (start : KafkaConsumer Cb × List Event) cs :=
  commits_last_iff_of_fresh cs start fresh_start atEach_nil

/-- Record 5 is polled, its commit fails, and the next poll commits 7. -/
theorem failed_commit_skips :
    ¬ ∀ cs : List Call,
      CommitsLast (cs.foldl step (start : KafkaConsumer Unit × List Event)).2 := by
  intro h
  have hlog : ([.poll 0 (.ok [⟨c_str "t", 0, 5, 0⟩]), .poll (-195) (.ok []),
        .poll 0 (.ok [])].foldl step (start : KafkaConsumer Unit × List Event)).2 =
      [.returned [⟨c_str "t", 0, 5, 0⟩],
        .commit (.rd_kafka_commit (some [⟨c_str "t", 0, 6⟩]) true)] ++
           .commit (.rd_kafka_commit (some [⟨c_str "t", 0, 7⟩]) true) :: [.returned []] := by
    decide +kernel
  obtain ⟨r, hr, heq⟩ := h _ _ _ _ hlog _ rfl _ rfl _ List.mem_cons_self
  have hlast : r ∈ [(⟨c_str "t", 0, 5, 0⟩ : ConsumerRecord)] := by
    simpa [returnedRecords] using mem_of_lastFor hr
  obtain rfl : r = ⟨c_str "t", 0, 5, 0⟩ := by simpa using hlast
  exact absurd heq (by decide)

/-! ## §5. Error records among the batches. -/

/-- A `poll` whose commit, if it makes one, succeeds. -/
def pollOk (fetched : Except RespErr (List ConsumerRecord)) : Call :=
  .poll RD_KAFKA_RESP_ERR_NO_ERROR fetched

/-- The event commits an offset for `tp`. -/
def Event.Commits (tp : TopicPartition) (event : Event) : Prop :=
  ∃ request offsets, event = .commit request ∧ offsets ∈ request.offsets ∧
    ∃ e ∈ offsets, e.key = tp

/-- An ordinary record of `tp` was returned, and nothing committed for `tp` since. -/
def DeliveredSince (tp : TopicPartition) (log : List Event) : Prop :=
  ∃ pre records post, log = pre ++ .returned records :: post ∧
    (∃ r ∈ records, r.Ok ∧ r.topicPartition = tp) ∧ ∀ event ∈ post, ¬ event.Commits tp

/-- The ordinary ones among the records. -/
def okRecords (records : List ConsumerRecord) : List ConsumerRecord := records.filter (·.Ok)

/-- Every commit is one past the last ordinary record of the partition returned before it, and
one was returned since the last commit for the partition. -/
def CommitsDelivered : List Event → Prop :=
  AtEach fun pre event => ∀ request, event = .commit request →
    ∀ offsets ∈ request.offsets, ∀ e ∈ offsets,
      (∃ r ∈ lastRecord e.key (okRecords (returnedRecords pre)), e.offset = r.offset + 1) ∧
        DeliveredSince e.key pre

/-- Each partition in the batch has an ordinary record in it, and the last of these has the
offset of the last record of the partition. -/
def EndsDelivered (records : List ConsumerRecord) : Prop :=
  ∀ r ∈ records, (lastRecord r.topicPartition (okRecords records)).map ConsumerRecord.offset =
    (lastRecord r.topicPartition records).map ConsumerRecord.offset

instance (records : List ConsumerRecord) : Decidable (EndsDelivered records) :=
  inferInstanceAs (Decidable (∀ r ∈ records, _))

/-- `records` is the batch returned last: its offsets are stored, and what was delivered for a
partition since its last commit is in it. -/
structure Pending (s : KafkaConsumer Cb × List Event) (records : List ConsumerRecord) : Prop where
  auto : s.1.enableAutoCommit = true
  stored : s.1.offsetsToStore = lastOffsets records
  returned : records <:+ returnedRecords s.2
  delivered : ∀ tp, DeliveredSince tp s.2 ↔ ∃ r ∈ records, r.Ok ∧ r.topicPartition = tp

/-- One more event delivers for `tp`, or is no commit for it. -/
theorem deliveredSince_snoc {tp : TopicPartition} {log : List Event} {event : Event} :
    DeliveredSince tp (log ++ [event]) ↔
      (∃ records, event = .returned records ∧ ∃ r ∈ records, r.Ok ∧ r.topicPartition = tp) ∨
        (DeliveredSince tp log ∧ ¬ event.Commits tp) := by
  constructor
  · rintro ⟨pre, rs, post, heq, hr, hpost⟩
    -- the batch found is the last event, or lies in the log before it
    rcases List.eq_nil_or_concat' post with rfl | ⟨post, event', rfl⟩
    · obtain ⟨-, hev⟩ : log = pre ∧ event = .returned rs := by
        simpa using List.append_inj' heq rfl
      exact .inl ⟨rs, hev, hr⟩
    · obtain ⟨hlog, hev⟩ := List.append_inj'
        (heq.trans (by simp : _ = (pre ++ .returned rs :: post) ++ [event'])) rfl
      obtain rfl : event = event' := by simpa using hev
      exact .inr ⟨⟨pre, rs, post, hlog, hr, fun ev hev => hpost ev (List.mem_append_left _ hev)⟩,
        hpost _ (by simp)⟩
  · rintro (⟨records, rfl, hr⟩ | ⟨⟨pre, rs, post, rfl, hr, hpost⟩, hnot⟩)
    · exact ⟨log, records, [], rfl, hr, by simp⟩
    · refine ⟨pre, rs, post ++ [event], by simp, hr, fun ev hev => ?_⟩
      rcases List.mem_append.mp hev with hev | hev
      · exact hpost ev hev
      · exact List.mem_singleton.mp hev ▸ hnot

theorem deliveredSince_returned {tp : TopicPartition} {log : List Event}
    {records : List ConsumerRecord} :
    DeliveredSince tp (log ++ [.returned records]) ↔
      (∃ r ∈ records, r.Ok ∧ r.topicPartition = tp) ∨ DeliveredSince tp log := by
  have hnot : ¬ (Event.returned records).Commits tp := by
    rintro ⟨_, _, heq, -⟩
    simp at heq
  rw [deliveredSince_snoc, and_iff_left hnot]
  simp

theorem deliveredSince_commit {tp : TopicPartition} {log : List Event}
    {request : CommitRequest Empty} :
    DeliveredSince tp (log ++ [.commit request]) ↔
      DeliveredSince tp log ∧ ¬ (Event.commit request).Commits tp := by
  rw [deliveredSince_snoc]
  simp

theorem nulFree_lastOffsets (records : List ConsumerRecord) :
    NulFreeTopics (lastOffsets records) := by
  intro tp hin
  have hsome := Std.ExtTreeMap.getElem?_eq_some_getElem hin
  obtain ⟨r, hr, -⟩ :=
    Option.map_eq_some_iff.mp ((getElem?_lastOffsets records tp).symm.trans hsome)
  rw [← key_of_lastFor hr]
  exact r.topic.2

/-- The entries of the commit of a batch. -/
theorem mem_batchCommit {records : List ConsumerRecord} {e : RkTopicPartition} :
    e ∈ createRkTopicPartitionList (incremented (lastOffsets records)) ↔
      ∃ r ∈ lastRecord e.key records, e.offset = r.offset + 1 := by
  rw [mem_storedCommit (nulFree_lastOffsets records), getElem?_lastOffsets]
  simp only [Option.mem_def, Option.map_eq_some_iff]
  constructor
  · rintro ⟨_, ⟨r, hr, rfl⟩, he⟩
    exact ⟨r, hr, he⟩
  · rintro ⟨r, hr, he⟩
    exact ⟨_, ⟨r, hr, rfl⟩, he⟩

/-- The commit of a batch commits for the partitions that have a record in it. -/
theorem storedCommit_commits {records : List ConsumerRecord} {type : CommitType}
    {tp : TopicPartition} :
    (storedCommit (lastOffsets records) type).Commits tp ↔
      ∃ r ∈ records, r.topicPartition = tp := by
  constructor
  · rintro ⟨request, offsets, hreq, hoff, e, he, rfl⟩
    obtain rfl := offsets_of_storedCommit hreq hoff
    obtain ⟨r, hr, -⟩ := mem_batchCommit.mp he
    exact ⟨r, mem_of_lastFor hr, key_of_lastFor hr⟩
  · rintro ⟨x, hx, rfl⟩
    obtain ⟨r, hr, -, hkey⟩ := exists_lastRecord hx
    rw [← hkey] at hr
    exact ⟨_, _, rfl, rfl, ⟨r.topic, r.partition, r.offset + 1⟩,
      mem_batchCommit.mpr ⟨r, hr, rfl⟩, hkey⟩

/-- The last ordinary record of a partition that has one in the batch returned last. -/
theorem Pending.lastRecord_eq {s : KafkaConsumer Cb × List Event} {records : List ConsumerRecord}
    (hs : Pending s records) {tp : TopicPartition} (h : DeliveredSince tp s.2) :
    (lastRecord tp (okRecords records)).isSome ∧
      lastRecord tp (okRecords (returnedRecords s.2)) = lastRecord tp (okRecords records) := by
  obtain ⟨r, hr, hok, rfl⟩ := (hs.delivered tp).mp h
  have hmem : r ∈ okRecords records := List.mem_filter.mpr ⟨hr, by simpa using hok⟩
  have hsome := lastFor_isSome_of_mem ConsumerRecord.topicPartition hmem
  refine ⟨hsome, ?_⟩
  obtain ⟨before, hbefore⟩ := hs.returned
  obtain ⟨k, hk⟩ := Option.isSome_iff_exists.mp hsome
  rw [← hbefore, okRecords, List.filter_append, lastRecord, lastFor_append]
  rw [show lastFor _ r.topicPartition (records.filter (·.Ok)) = some k from hk, Option.some_or]
  exact hk.symm

/-- Committing the batch returned last is in order exactly when it ends delivered. -/
theorem Pending.commitsDelivered_iff {s : KafkaConsumer Cb × List Event}
    {records : List ConsumerRecord} (hs : Pending s records) (h : CommitsDelivered s.2)
    (type : CommitType) :
    CommitsDelivered (s.2 ++ [storedCommit (lastOffsets records) type]) ↔
      EndsDelivered records := by
  refine atEach_snoc.trans ⟨fun ⟨_, hgood⟩ x hx => ?_, fun hends => ⟨h, ?_⟩⟩
  · -- the entry committed for the partition of `x` is one past the last record `r`
    obtain ⟨r, hr, -, hrkey⟩ := exists_lastRecord hx
    set e : RkTopicPartition := ⟨r.topic, r.partition, r.offset + 1⟩
    have hkey : e.key = x.topicPartition := hrkey
    have he : e ∈ createRkTopicPartitionList (incremented (lastOffsets records)) :=
      mem_batchCommit.mpr ⟨r, by rwa [hkey], rfl⟩
    obtain ⟨⟨k, hk, heq⟩, hdel⟩ := hgood _ rfl _ rfl e he
    rw [hkey] at hk hdel
    rw [(hs.lastRecord_eq hdel).2] at hk
    have hoff : r.offset = k.offset := by
      have : r.offset + 1 = k.offset + 1 := heq
      grind
    rw [show lastRecord x.topicPartition (okRecords records) = some k from hk,
      show lastRecord x.topicPartition records = some r from hr]
    exact congrArg some hoff.symm
  · intro request heq offsets hoffsets e he
    obtain rfl := offsets_of_storedCommit heq hoffsets
    obtain ⟨r, hr, heo⟩ := mem_batchCommit.mp he
    have hmap := hends r (mem_of_lastFor hr)
    rw [key_of_lastFor hr, show lastRecord e.key records = some r from hr] at hmap
    obtain ⟨k, hk, hoff⟩ := Option.map_eq_some_iff.mp hmap
    have hkmem := List.mem_filter.mp (mem_of_lastFor hk)
    have hdel : DeliveredSince e.key s.2 :=
      (hs.delivered _).mpr ⟨k, hkmem.1, by simpa using hkmem.2, key_of_lastFor hk⟩
    refine ⟨⟨k, ?_, by rw [heo, hoff]⟩, hdel⟩
    rw [(hs.lastRecord_eq hdel).2]
    exact hk

/-- A poll whose commit succeeds: the batch it returns takes the place of the one before. -/
theorem Pending.poll {s : KafkaConsumer Cb × List Event} {records : List ConsumerRecord}
    (hs : Pending s records) (h : CommitsDelivered s.2) (hends : EndsDelivered records)
    (fetched : Except RespErr (List ConsumerRecord)) :
    Pending (step s (pollOk fetched)) (returnedRecords (pollOk fetched).events) ∧
      CommitsDelivered (step s (pollOk fetched)).2 := by
  have hc : ¬ CommitFails s.1 (pollOk fetched) := fun hfail => hfail.2 rfl
  rw [show Consumer.step s (pollOk fetched) = _ from step_of_not_fails hs.auto hc]
  -- after the commit nothing is left that was delivered and not committed
  obtain ⟨log, hlog, hcommitted, hnone⟩ : ∃ log, (s.2 ++ if s.1.offsetsToStore = ∅ then []
      else [storedCommit s.1.offsetsToStore (pollOk fetched).type]) = log ∧
        CommitsDelivered log ∧ ∀ tp, ¬ DeliveredSince tp log := by
    -- with and without a batch to commit
    refine ⟨_, rfl, ?_, fun tp => ?_⟩ <;> split
    · rwa [List.append_nil]
    · rw [hs.stored]
      exact (hs.commitsDelivered_iff h _).mpr hends
    · next hnil =>
      have hrecords : records = [] := lastOffsets_eq_empty (hs.stored.symm.trans hnil)
      rw [List.append_nil, hs.delivered, hrecords]
      simp
    · rw [hs.stored]
      intro hd
      obtain ⟨hd, hnot⟩ := deliveredSince_commit.mp hd
      obtain ⟨r, hr, -, htp⟩ := (hs.delivered tp).mp hd
      exact hnot (storedCommit_commits.mpr ⟨r, hr, htp⟩)
  rw [hlog]
  rcases (pollOk fetched).events_cases with hev | ⟨batch, hev⟩
  · rw [hev, List.append_nil]
    exact ⟨⟨hs.auto, rfl, List.nil_suffix, fun tp => by simp [returnedRecords, hnone tp]⟩,
      hcommitted⟩
  · rw [hev]
    refine ⟨⟨hs.auto, rfl, ?_, fun tp => ?_⟩, ?_⟩
    · rw [returnedRecords_append]
      exact List.suffix_append _ _
    · rw [deliveredSince_returned]
      simp [returnedRecords, hnone tp]
    · exact atEach_snoc.mpr ⟨hcommitted, fun _ heq => by simp at heq⟩

/-- Polling on commits the batch returned last. -/
theorem Pending.endsDelivered {s : KafkaConsumer Cb × List Event} {records : List ConsumerRecord}
    (hs : Pending s records) (h : CommitsDelivered s.2)
    (fetched : Except RespErr (List ConsumerRecord))
    (h' : CommitsDelivered (step s (pollOk fetched)).2) : EndsDelivered records := by
  have hc : ¬ CommitFails s.1 (pollOk fetched) := fun hfail => hfail.2 rfl
  rw [show Consumer.step s (pollOk fetched) = _ from step_of_not_fails hs.auto hc] at h'
  have hcommit := AtEach.of_append h'
  by_cases hnil : s.1.offsetsToStore = ∅
  · have hrecords : records = [] := lastOffsets_eq_empty (hs.stored.symm.trans hnil)
    rw [hrecords]
    simp [EndsDelivered]
  · rw [if_neg hnil, hs.stored] at hcommit
    exact (hs.commitsDelivered_iff h _).mp hcommit

theorem commits_delivered_iff_of_pending (fetches : List (Except RespErr (List ConsumerRecord)))
    (s : KafkaConsumer Cb × List Event) (records : List ConsumerRecord) (hs : Pending s records)
    (h : CommitsDelivered s.2) :
    CommitsDelivered ((fetches.map pollOk).foldl step s).2 ↔
      (fetches ≠ [] → EndsDelivered records) ∧
        ∀ f ∈ fetches.dropLast, ∀ batch, f = .ok batch → EndsDelivered batch := by
  induction fetches generalizing s records with
  | nil => exact iff_of_true h (by simp)
  | cons f fs ih =>
    rw [List.map_cons, List.foldl_cons]
    by_cases hends : EndsDelivered records
    · obtain ⟨hs', h'⟩ := hs.poll h hends f
      -- the batch of this poll is the one the next commits
      have hbatch : EndsDelivered (returnedRecords (pollOk f).events) ↔
          ∀ batch, f = .ok batch → EndsDelivered batch := by
        cases f with
        | error e => simp [pollOk, Call.events, returnedRecords, EndsDelivered]
        | ok batch => simp [pollOk, Call.events, returnedRecords]
      rw [ih _ _ hs' h', hbatch]
      cases fs with
      | nil => simp [hends]
      | cons f' fs => simp [hends]
    · refine iff_of_false (fun hall => hends ?_) (fun hall => hends (hall.1 (by simp)))
      obtain ⟨hauto, -⟩ := step_log s (pollOk f) hs.auto
      obtain ⟨more, hmore⟩ := foldl_step_log (fs.map pollOk) (step s (pollOk f)) hauto
      rw [hmore] at hall
      exact hs.endsDelivered h f hall.of_append

theorem pending_start : Pending (start : KafkaConsumer Cb × List Event) [] :=
  ⟨rfl, rfl, List.nil_suffix, fun tp => by simp [DeliveredSince, start]⟩

/-- **Auto-commit passes no undelivered record exactly when** every batch but the last, which no
poll commits, ends delivered: its error records neither stand alone in their partition nor
follow its last ordinary record with another offset. -/
theorem commits_delivered_iff (fetches : List (Except RespErr (List ConsumerRecord))) :
    CommitsDelivered
        ((fetches.map pollOk).foldl step (start : KafkaConsumer Cb × List Event)).2 ↔
      ∀ f ∈ fetches.dropLast, ∀ batch, f = .ok batch → EndsDelivered batch := by
  rw [commits_delivered_iff_of_pending fetches start [] pending_start atEach_nil]
  exact and_iff_right fun _ => by simp [EndsDelivered]

/-- The end-of-partition mark of offset 5 makes 6 the committed offset, which skips record 5. -/
theorem partition_eof_skips :
    ¬ ∀ fetches : List (Except RespErr (List ConsumerRecord)), CommitsDelivered
      ((fetches.map pollOk).foldl step (start : KafkaConsumer Unit × List Event)).2 := by
  intro h
  have := (commits_delivered_iff_of_pending _ _ [] pending_start atEach_nil).mp
    (h [.ok [⟨c_str "t", 0, 4, 0⟩, ⟨c_str "t", 0, 5, RD_KAFKA_RESP_ERR__PARTITION_EOF⟩], .ok []])
  exact absurd (this.2 _ List.mem_cons_self _ rfl) (by decide +kernel)

end ModernCppKafka.Consumer
