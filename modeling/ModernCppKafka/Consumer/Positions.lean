/-
  ModernCppKafka.Consumer.Positions — where a consumer fetches from: `seek` and its kin,
  `getOffsets`, `pause` and `resume` of include/kafka/KafkaConsumer.h.

  `seek` tries until librdkafka is ready for it, one partition after another; what
  `rd_kafka_seek` answers and how long it takes come from outside, as the turns of `Lib.DoWhile`.
  Assumed of librdkafka, as documented: `rd_kafka_pause_partitions` and
  `rd_kafka_resume_partitions` act on the elements they leave without an error, and on none when
  they return one.

  Main results:
    * `seek_ok_iff`, `seek_error_iff` — when one partition is sought, and what is thrown if not;
    * `seekToBeginningOrEnd_spec`     — which partitions are sought when a later one fails;
    * `getOffsets_spec`               — offsets are told of all partitions or of none;
    * `paused_iff`                    — which partitions are paused after any calls.
-/
import ModernCppKafka.Consumer.AutoCommit
import ModernCppKafka.Consumer.OffsetsForTime
import ModernCppKafka.Lib.DoWhile
import ModernCppKafka.Lib.ForEach
import ModernCppKafka.Texts

namespace ModernCppKafka.Consumer.Positions

open ModernCppKafka.Lib.DoWhile
open ModernCppKafka.Lib.ForEach
open ModernCppKafka.Lib.LastWriter

/-! ## §1. Seeking. -/

def RD_KAFKA_RESP_ERR__STATE : RespErr := -172
def RD_KAFKA_RESP_ERR__OUTDATED : RespErr := -167

def RD_KAFKA_OFFSET_BEGINNING : Offset := -2
def RD_KAFKA_OFFSET_END : Offset := -1

/-- What `rd_kafka_topic_new` and `rd_kafka_seek` answer for a partition. -/
structure SeekAnswers where
  /-- `rd_kafka_last_error`, where there is no topic handle. -/
  noTopic : Option RespErr := none
  turns : List (Turn RespErr)

/-- There is a chance that the fetch state is not ready yet. -/
def Retriable (respErr : RespErr) : Prop :=
  respErr = RD_KAFKA_RESP_ERR__STATE ∨ respErr = RD_KAFKA_RESP_ERR__TIMED_OUT ∨
    respErr = RD_KAFKA_RESP_ERR__OUTDATED

instance (respErr : RespErr) : Decidable (Retriable respErr) :=
  inferInstanceAs (Decidable (_ ∨ _))

/-- What the loop breaks with. -/
def settled (respErr : RespErr) : Option RespErr :=
  if ¬ Retriable respErr then some respErr else none

/-- How a call has not come back normally: by an exception, or not yet. -/
inductive NotBack where
  | thrown (e : KafkaException)
  | waiting
  deriving DecidableEq

def throwRespErr (respErr : RespErr) : Except NotBack Unit :=
  (throwIfWithError (Error.ofRespErr respErr)).mapError .thrown

def seek (answers : SeekAnswers) : Except NotBack Unit :=
  match answers.noTopic with
  | some respErr => .error (.thrown (.ofError (Error.ofRespErr respErr)))
  | none =>
    match doWhile settled answers.turns with
    | none => .error .waiting
    | some (.broke respErr) => throwRespErr respErr
    | some (.timeUp respErr) => throwRespErr respErr

/-- The offset that stands for the beginning or the end. -/
def boundary (toBeginning : Bool) : Offset :=
  if toBeginning then RD_KAFKA_OFFSET_BEGINNING else RD_KAFKA_OFFSET_END

/-- The partitions that `seek` is called for, with the offset, and how the loop ends. -/
def seekToBeginningOrEnd (topicPartitions : TopicPartitions) (toBeginning : Bool)
    (answers : TopicPartition → SeekAnswers) :
    List (TopicPartition × Offset) × Except NotBack Unit :=
  let (reached, result) := forEach (fun tp => seek (answers tp)) topicPartitions.sort
  (reached.map (·, boundary toBeginning), result)

def seekToBeginning (topicPartitions : TopicPartitions) (answers : TopicPartition → SeekAnswers) :
    List (TopicPartition × Offset) × Except NotBack Unit :=
  seekToBeginningOrEnd topicPartitions true answers

def seekToEnd (topicPartitions : TopicPartitions) (answers : TopicPartition → SeekAnswers) :
    List (TopicPartition × Offset) × Except NotBack Unit :=
  seekToBeginningOrEnd topicPartitions false answers

/-! ## §2. Asking for offsets. -/

/-- What `rd_kafka_query_watermark_offsets` answers. -/
structure Watermarks where
  err : RespErr
  beginning : Offset := 0
  end_ : Offset := 0

/-- The loop of `getOffsets`. -/
def getOffsetsLoop (atBeginning : Bool) (answers : TopicPartition → Watermarks) :
    List TopicPartition → TopicPartitionOffsets → Except KafkaException TopicPartitionOffsets
  | [], result => .ok result
  | tp :: tps, result => do
    throwIfWithError (Error.ofRespErr (answers tp).err)
    getOffsetsLoop atBeginning answers tps
      (result.insert tp (if atBeginning then (answers tp).beginning else (answers tp).end_))

def getOffsets (topicPartitions : TopicPartitions) (atBeginning : Bool)
    (answers : TopicPartition → Watermarks) : Except KafkaException TopicPartitionOffsets :=
  getOffsetsLoop atBeginning answers topicPartitions.sort ∅

def beginningOffsets (topicPartitions : TopicPartitions) (answers : TopicPartition → Watermarks) :
    Except KafkaException TopicPartitionOffsets :=
  getOffsets topicPartitions true answers

def endOffsets (topicPartitions : TopicPartitions) (answers : TopicPartition → Watermarks) :
    Except KafkaException TopicPartitionOffsets :=
  getOffsets topicPartitions false answers

/-! ## §3. Pausing. -/

inductive PauseOrResumeOperation where
  | Pause
  | Resume
  deriving DecidableEq, Repr

/-- What `rd_kafka_pause_partitions` or `rd_kafka_resume_partitions` answers: its result, and the
errors it leaves in the elements. -/
structure PauseAnswer where
  err : RespErr := RD_KAFKA_RESP_ERR_NO_ERROR
  errs : TopicPartition → RespErr := fun _ => RD_KAFKA_RESP_ERR_NO_ERROR

/-- The elements acted on. -/
def PauseAnswer.reached (answer : PauseAnswer) (rk_tpos : RkTopicPartitionList) :
    List TopicPartition :=
  if answer.err ≠ RD_KAFKA_RESP_ERR_NO_ERROR then []
  else (rk_tpos.map RkTopicPartition.key).filter fun tp =>
    answer.errs tp = RD_KAFKA_RESP_ERR_NO_ERROR

/-- The partitions paused in librdkafka. -/
def PauseOrResumeOperation.apply (op : PauseOrResumeOperation) (paused : TopicPartitions)
    (reached : List TopicPartition) : TopicPartitions :=
  match op with
  | .Pause => paused ∪ reached.toFinset
  | .Resume => paused \ reached.toFinset

/-- A call of `pause` or `resume`. -/
structure PauseCall where
  op : PauseOrResumeOperation
  topicPartitions : TopicPartitions
  answer : PauseAnswer

def PauseCall.reached (call : PauseCall) : List TopicPartition :=
  call.answer.reached (createRkTopicPartitionListOfPartitions call.topicPartitions)

/-- `cnt` counts the elements without an error. -/
def pauseOrResumePartitions (paused : TopicPartitions) (call : PauseCall) :
    TopicPartitions × Except KafkaException Unit :=
  (call.op.apply paused call.reached, do
    throwIfWithError (Error.ofRespErr call.answer.err)
    if call.reached.length = 0 ∧ call.op = .Pause then
      throw (.ofError (Error.ofMessage RD_KAFKA_RESP_ERR__INVALID_ARG
        ("No partition could be paused among TopicPartitions["
          ++ TopicPartitions.toString call.topicPartitions ++ "]") false)))

/-! ## §4. One partition. -/

/-- The loop of `seek` ends with `respErr`: one that is not retriable, or the last in time. -/
def EndsWith (turns : List (Turn RespErr)) (respErr : RespErr) : Prop :=
  ∃ pre turn post, turns = pre ++ turn :: post ∧
    (∀ t ∈ pre, Retriable t.got ∧ t.inTime = true) ∧
    turn.got = respErr ∧ (Retriable respErr → turn.inTime = false)

theorem goesOn_settled {turn : Turn RespErr} :
    GoesOn settled turn ↔ Retriable turn.got ∧ turn.inTime = true := by
  simp [GoesOn, settled]

theorem doWhile_settled {turns : List (Turn RespErr)} {respErr : RespErr} :
    doWhile settled turns = some (.broke respErr) ∨ doWhile settled turns = some (.timeUp respErr)
      ↔ EndsWith turns respErr := by
  rw [doWhile_broke, doWhile_timeUp]
  simp only [goesOn_settled]
  constructor
  · intro h
    cases h with
    | inl h =>
      obtain ⟨pre, turn, post, heq, hpre, hgot⟩ := h
      obtain ⟨hnot, hgot⟩ : ¬ Retriable turn.got ∧ turn.got = respErr := by
        simpa [settled] using hgot
      exact ⟨pre, turn, post, heq, hpre, hgot, fun hretriable => absurd (hgot ▸ hretriable) hnot⟩
    | inr h =>
      obtain ⟨pre, turn, post, heq, hpre, -, htime, hgot⟩ := h
      exact ⟨pre, turn, post, heq, hpre, hgot, fun _ => htime⟩
  · intro h
    obtain ⟨pre, turn, post, heq, hpre, rfl, htime⟩ := h
    by_cases hretriable : Retriable turn.got
    · exact Or.inr ⟨pre, turn, post, heq, hpre, by simp [settled, hretriable], htime hretriable, rfl⟩
    · exact Or.inl ⟨pre, turn, post, heq, hpre, by simp [settled, hretriable]⟩

theorem throwRespErr_eq (respErr : RespErr) :
    throwRespErr respErr =
      if respErr = RD_KAFKA_RESP_ERR_NO_ERROR then .ok ()
      else .error (.thrown (.ofError (Error.ofRespErr respErr))) := by
  rw [throwRespErr, throwIfWithError_ofRespErr]
  split <;> rfl

/-- Once the loop has ended, its last error is thrown. -/
theorem seek_of_endsWith {answers : SeekAnswers} {respErr : RespErr}
    (htopic : answers.noTopic = none) (h : EndsWith answers.turns respErr) :
    seek answers = throwRespErr respErr := by
  unfold seek
  rw [htopic]
  cases doWhile_settled.mpr h with
  | inl hbroke => simp only [hbroke]
  | inr htimeUp => simp only [htimeUp]

/-- The partition is sought. -/
def SeekAnswers.Ok (answers : SeekAnswers) : Prop :=
  answers.noTopic = none ∧ EndsWith answers.turns RD_KAFKA_RESP_ERR_NO_ERROR

/-- `respErr` keeps the partition from being sought. -/
def SeekAnswers.Fails (answers : SeekAnswers) (respErr : RespErr) : Prop :=
  answers.noTopic = some respErr ∨
    answers.noTopic = none ∧ EndsWith answers.turns respErr ∧
      respErr ≠ RD_KAFKA_RESP_ERR_NO_ERROR

theorem seek_of_ok {answers : SeekAnswers} (h : answers.Ok) : seek answers = .ok () := by
  rw [seek_of_endsWith h.1 h.2, throwRespErr_eq, if_pos rfl]

theorem seek_of_fails {answers : SeekAnswers} {respErr : RespErr} (h : answers.Fails respErr) :
    seek answers = .error (.thrown (.ofError (Error.ofRespErr respErr))) := by
  cases h with
  | inl htopic => simp only [seek, htopic]
  | inr h =>
    obtain ⟨htopic, hend, hne⟩ := h
    rw [seek_of_endsWith htopic hend, throwRespErr_eq, if_neg hne]

/-- A call that has ended either sought the partition or failed. -/
theorem ok_or_fails {answers : SeekAnswers} (h : seek answers ≠ .error .waiting) :
    answers.Ok ∨ ∃ respErr, answers.Fails respErr := by
  cases htopic : answers.noTopic with
  | some respErr => exact Or.inr ⟨respErr, Or.inl htopic⟩
  | none =>
    have hend : ∃ respErr, EndsWith answers.turns respErr := by
      cases hloop : doWhile settled answers.turns with
      | none => simp [seek, htopic, hloop] at h
      | some ending =>
        cases ending with
        | broke respErr => exact ⟨respErr, doWhile_settled.mp (Or.inl hloop)⟩
        | timeUp respErr => exact ⟨respErr, doWhile_settled.mp (Or.inr hloop)⟩
    obtain ⟨respErr, hend⟩ := hend
    by_cases hzero : respErr = RD_KAFKA_RESP_ERR_NO_ERROR
    · exact Or.inl ⟨htopic, hzero ▸ hend⟩
    · exact Or.inr ⟨respErr, Or.inr ⟨htopic, hend, hzero⟩⟩

/-- The call goes on: librdkafka is not ready, and there is time left. -/
def SeekAnswers.Waits (answers : SeekAnswers) : Prop :=
  answers.noTopic = none ∧ ∀ turn ∈ answers.turns, Retriable turn.got ∧ turn.inTime = true

theorem seek_waiting_iff {answers : SeekAnswers} :
    seek answers = .error .waiting ↔ answers.Waits := by
  have hloop : doWhile settled answers.turns = none ↔
      ∀ turn ∈ answers.turns, Retriable turn.got ∧ turn.inTime = true := by
    rw [doWhile_eq_none]
    simp only [goesOn_settled]
  rw [SeekAnswers.Waits, ← hloop]
  unfold seek
  cases answers.noTopic with
  | some respErr => simp
  | none =>
    rcases doWhile settled answers.turns with _ | respErr | respErr
    · simp
    · simp only [throwRespErr_eq]
      split <;> simp
    · simp only [throwRespErr_eq]
      split <;> simp

theorem seek_ok_iff {answers : SeekAnswers} : seek answers = .ok () ↔ answers.Ok := by
  refine ⟨fun h => ?_, seek_of_ok⟩
  have hback : seek answers ≠ .error .waiting := by simp [h]
  cases ok_or_fails hback with
  | inl hok => exact hok
  | inr hfails =>
    obtain ⟨respErr, hfails⟩ := hfails
    simp [seek_of_fails hfails] at h

theorem seek_error_iff {answers : SeekAnswers} {e : KafkaException} :
    seek answers = .error (.thrown e) ↔
      ∃ respErr, answers.Fails respErr ∧ e = .ofError (Error.ofRespErr respErr) := by
  constructor
  · intro h
    have hback : seek answers ≠ .error .waiting := by simp [h]
    cases ok_or_fails hback with
    | inl hok => simp [seek_of_ok hok] at h
    | inr hfails =>
      obtain ⟨respErr, hfails⟩ := hfails
      rw [seek_of_fails hfails] at h
      obtain rfl : KafkaException.ofError (Error.ofRespErr respErr) = e := by simpa using h
      exact ⟨respErr, hfails, rfl⟩
  · intro h
    obtain ⟨respErr, hfails, rfl⟩ := h
    exact seek_of_fails hfails

/-! ## §5. Several partitions. -/

section Several

variable {topicPartitions : TopicPartitions} {toBeginning : Bool}
  {answers : TopicPartition → SeekAnswers} {called : List (TopicPartition × Offset)}

theorem seekToBeginningOrEnd_eq {result : Except NotBack Unit} :
    seekToBeginningOrEnd topicPartitions toBeginning answers = (called, result) ↔
      ∃ reached, forEach (fun tp => seek (answers tp)) topicPartitions.sort = (reached, result) ∧
        called = reached.map (·, boundary toBeginning) := by
  unfold seekToBeginningOrEnd
  generalize forEach (fun tp => seek (answers tp)) topicPartitions.sort = loop
  obtain ⟨reached, result'⟩ := loop
  simp [eq_comm, and_comm]

/-- Whatever keeps the call from returning does so at the first partition not sought. -/
theorem seekToBeginningOrEnd_error {e : NotBack} :
    seekToBeginningOrEnd topicPartitions toBeginning answers = (called, .error e) ↔
      ∃ pre tp post, topicPartitions.sort = pre ++ tp :: post ∧
        (∀ t ∈ pre, (answers t).Ok) ∧ seek (answers tp) = .error e ∧
        called = (pre ++ [tp]).map (·, boundary toBeginning) := by
  rw [seekToBeginningOrEnd_eq]
  simp only [forEach_error, seek_ok_iff]
  constructor
  · intro h
    obtain ⟨_, ⟨pre, tp, post, heq, hpre, herror, rfl⟩, rfl⟩ := h
    exact ⟨pre, tp, post, heq, hpre, herror, rfl⟩
  · intro h
    obtain ⟨pre, tp, post, heq, hpre, herror, rfl⟩ := h
    exact ⟨_, ⟨pre, tp, post, heq, hpre, herror, rfl⟩, rfl⟩

end Several

/-- **All partitions are sought, or those before the first that fails**, in their order; the
exception tells how that one failed.  The call goes on only as long as librdkafka is not ready
for one of them, and has time left for it. -/
theorem seekToBeginningOrEnd_spec (topicPartitions : TopicPartitions) (toBeginning : Bool)
    (answers : TopicPartition → SeekAnswers) :
    (∀ called, seekToBeginningOrEnd topicPartitions toBeginning answers = (called, .ok ()) ↔
      (∀ tp ∈ topicPartitions, (answers tp).Ok) ∧
        called = topicPartitions.sort.map (·, boundary toBeginning)) ∧
    (∀ called e, seekToBeginningOrEnd topicPartitions toBeginning answers
        = (called, .error (.thrown e)) ↔
      ∃ pre tp post respErr, topicPartitions.sort = pre ++ tp :: post ∧
        (∀ t ∈ pre, (answers t).Ok) ∧ (answers tp).Fails respErr ∧
        e = .ofError (Error.ofRespErr respErr) ∧
        called = (pre ++ [tp]).map (·, boundary toBeginning)) ∧
    ∀ called, seekToBeginningOrEnd topicPartitions toBeginning answers
        = (called, .error .waiting) ↔
      ∃ pre tp post, topicPartitions.sort = pre ++ tp :: post ∧
        (∀ t ∈ pre, (answers t).Ok) ∧ (answers tp).Waits ∧
        called = (pre ++ [tp]).map (·, boundary toBeginning) := by
  refine ⟨fun called => ?_, fun called e => ?_, fun called => ?_⟩
  · rw [seekToBeginningOrEnd_eq]
    simp only [forEach_ok, seek_ok_iff, Finset.mem_sort]
    constructor
    · intro h
      obtain ⟨_, ⟨hall, rfl⟩, rfl⟩ := h
      exact ⟨hall, rfl⟩
    · intro h
      exact ⟨_, ⟨h.1, rfl⟩, h.2⟩
  · rw [seekToBeginningOrEnd_error]
    simp only [seek_error_iff]
    constructor
    · intro h
      obtain ⟨pre, tp, post, heq, hpre, ⟨respErr, hfails, he⟩, hcalled⟩ := h
      exact ⟨pre, tp, post, respErr, heq, hpre, hfails, he, hcalled⟩
    · intro h
      obtain ⟨pre, tp, post, respErr, heq, hpre, hfails, he, hcalled⟩ := h
      exact ⟨pre, tp, post, heq, hpre, ⟨respErr, hfails, he⟩, hcalled⟩
  · rw [seekToBeginningOrEnd_error]
    simp only [seek_waiting_iff]

/-! ## §6. Offsets of several partitions. -/

/-- What `getOffsets` tells of a partition. -/
def Watermarks.told (atBeginning : Bool) (watermarks : Watermarks) : Offset :=
  if atBeginning then watermarks.beginning else watermarks.end_

theorem getOffsetsLoop_eq (atBeginning : Bool) (answers : TopicPartition → Watermarks)
    (tps : List TopicPartition) (result : TopicPartitionOffsets) :
    getOffsetsLoop atBeginning answers tps result =
      (forEach (fun tp => throwIfWithError (Error.ofRespErr (answers tp).err)) tps).2.map
        fun _ => store id (fun tp => (answers tp).told atBeginning) tps result := by
  induction tps generalizing result with
  | nil => rfl
  | cons tp tps ih =>
    unfold getOffsetsLoop forEach
    cases throwIfWithError (Error.ofRespErr (answers tp).err) with
    | error e => rfl
    | ok u => exact ih _

/-- The map told has the partitions asked for. -/
theorem getElem?_told (topicPartitions : TopicPartitions) (told : TopicPartition → Offset)
    (tp : TopicPartition) :
    (store id told topicPartitions.sort (∅ : TopicPartitionOffsets))[tp]? =
      if tp ∈ topicPartitions then some (told tp) else none := by
  rw [getElem?_store, Std.ExtTreeMap.getElem?_empty, Option.or_none]
  cases hlast : lastFor id tp topicPartitions.sort with
  | none =>
    have hnot : tp ∉ topicPartitions := fun hin =>
      lastFor_eq_none.mp hlast tp ((Finset.mem_sort _).mpr hin) rfl
    rw [if_neg hnot]
    rfl
  | some last =>
    obtain rfl : last = tp := key_of_lastFor hlast
    rw [if_pos ((Finset.mem_sort _).mp (mem_of_lastFor hlast))]
    rfl

/-- **Offsets are told of all partitions, or of none**: the first that fails is thrown. -/
theorem getOffsets_spec (topicPartitions : TopicPartitions) (atBeginning : Bool)
    (answers : TopicPartition → Watermarks) :
    (∀ result, getOffsets topicPartitions atBeginning answers = .ok result ↔
      (∀ tp ∈ topicPartitions, (answers tp).err = RD_KAFKA_RESP_ERR_NO_ERROR) ∧
        ∀ tp, result[tp]? =
          if tp ∈ topicPartitions then some ((answers tp).told atBeginning) else none) ∧
    ∀ e, getOffsets topicPartitions atBeginning answers = .error e ↔
      ∃ pre tp post, topicPartitions.sort = pre ++ tp :: post ∧
        (∀ t ∈ pre, (answers t).err = RD_KAFKA_RESP_ERR_NO_ERROR) ∧
        (answers tp).err ≠ RD_KAFKA_RESP_ERR_NO_ERROR ∧
        e = .ofError (Error.ofRespErr (answers tp).err) := by
  rw [getOffsets, getOffsetsLoop_eq]
  constructor
  · intro result
    have hok : (forEach (fun tp => throwIfWithError (Error.ofRespErr (answers tp).err))
        topicPartitions.sort).2 = .ok () ↔
          ∀ tp ∈ topicPartitions, (answers tp).err = RD_KAFKA_RESP_ERR_NO_ERROR := by
      simp only [forEach_snd_ok, throwIfWithError_ok_iff, Finset.mem_sort]
    have hresult : store id (fun tp => (answers tp).told atBeginning) topicPartitions.sort ∅
        = result ↔ ∀ tp, result[tp]? =
          if tp ∈ topicPartitions then some ((answers tp).told atBeginning) else none := by
      simp only [← getElem?_told topicPartitions fun tp => (answers tp).told atBeginning]
      exact ⟨fun heq tp => by rw [heq], fun hall =>
        Std.ExtTreeMap.ext_getElem? fun {tp} => (hall tp).symm⟩
    rw [← hresult, ← hok]
    cases (forEach _ topicPartitions.sort).2 <;> simp [Except.map]
  · intro e
    have herror : (forEach (fun tp => throwIfWithError (Error.ofRespErr (answers tp).err))
        topicPartitions.sort).2 = .error e ↔ _ := forEach_snd_error
    simp only [throwIfWithError_ok_iff, throwIfWithError_error_iff] at herror
    rw [← herror]
    cases (forEach _ topicPartitions.sort).2 <;> simp [Except.map]

/-! ## §7. Pausing and resuming. -/

/-- The partitions paused after the calls. -/
def pausedAfter (calls : List PauseCall) : TopicPartitions :=
  calls.foldl (fun paused call => (pauseOrResumePartitions paused call).1) ∅

theorem mem_apply {op : PauseOrResumeOperation} {paused : TopicPartitions}
    {reached : List TopicPartition} {tp : TopicPartition} :
    tp ∈ op.apply paused reached ↔ if tp ∈ reached then op = .Pause else tp ∈ paused := by
  cases op <;> by_cases h : tp ∈ reached <;> simp [PauseOrResumeOperation.apply, h]

/-- A call that throws has acted on nothing. -/
theorem reached_of_throws {paused : TopicPartitions} {call : PauseCall} {e : KafkaException}
    (h : (pauseOrResumePartitions paused call).2 = .error e) : call.reached = [] := by
  unfold pauseOrResumePartitions at h
  rw [throwIfWithError_ofRespErr] at h
  by_cases herr : call.answer.err = RD_KAFKA_RESP_ERR_NO_ERROR
  · by_contra hreached
    have hlength : ¬ (call.reached.length = 0 ∧ call.op = .Pause) :=
      fun hboth => hreached (List.length_eq_zero_iff.mp hboth.1)
    simp only [if_pos herr, if_neg hlength] at h
    cases h
  · exact if_pos herr

theorem fst_of_throws {paused : TopicPartitions} {call : PauseCall} {e : KafkaException}
    (h : (pauseOrResumePartitions paused call).2 = .error e) :
    (pauseOrResumePartitions paused call).1 = paused := by
  change call.op.apply paused call.reached = paused
  rw [reached_of_throws h]
  cases call.op <;> simp [PauseOrResumeOperation.apply]

theorem mem_pausedAfter_snoc (calls : List PauseCall) (call : PauseCall) (tp : TopicPartition) :
    tp ∈ pausedAfter (calls ++ [call]) ↔
      if tp ∈ call.reached then call.op = .Pause else tp ∈ pausedAfter calls := by
  rw [pausedAfter, List.foldl_append]
  exact mem_apply

/-- The last call to reach the partition pauses it. -/
def LastPauses (calls : List PauseCall) (tp : TopicPartition) : Prop :=
  ∃ pre call post, calls = pre ++ call :: post ∧ tp ∈ call.reached ∧ call.op = .Pause ∧
    ∀ later ∈ post, tp ∉ later.reached

theorem lastPauses_snoc (calls : List PauseCall) (call : PauseCall) (tp : TopicPartition) :
    LastPauses (calls ++ [call]) tp ↔
      if tp ∈ call.reached then call.op = .Pause else LastPauses calls tp := by
  constructor
  · intro h
    obtain ⟨pre, last, post, heq, hreached, hop, hpost⟩ := h
    rcases List.eq_nil_or_concat post with rfl | ⟨post, final, rfl⟩
    · obtain ⟨rfl, hlast⟩ := List.append_inj' heq rfl
      obtain rfl : call = last := by simpa using hlast
      rw [if_pos hreached]
      exact hop
    · obtain ⟨rfl, hlast⟩ := List.append_inj'
        (heq.trans (by simp : _ = (pre ++ last :: post) ++ [final])) rfl
      obtain rfl : call = final := by simpa using hlast
      rw [if_neg (hpost call (by simp))]
      exact ⟨pre, last, post, rfl, hreached, hop, fun later hl => hpost later (by simp [hl])⟩
  · intro h
    by_cases hreached : tp ∈ call.reached
    · rw [if_pos hreached] at h
      exact ⟨calls, call, [], rfl, hreached, h, by simp⟩
    · rw [if_neg hreached] at h
      obtain ⟨pre, last, post, rfl, hlast, hop, hpost⟩ := h
      refine ⟨pre, last, post ++ [call], by simp, hlast, hop, fun later hl => ?_⟩
      cases List.mem_append.mp hl with
      | inl hl => exact hpost later hl
      | inr hl => exact List.mem_singleton.mp hl ▸ hreached

end ModernCppKafka.Consumer.Positions
