/-
  ModernCppKafka.Clients.AdminClient — include/kafka/AdminClient.h.

  A command is sent to librdkafka with a queue of its own, and the queue polled until the
  command's result event comes or the time is up; events of other types are thrown away.  The
  events polled and the readings of the clock come from outside, as the turns of
  `Lib.DoWhile`, and what librdkafka says to a new topic or a config is a parameter.

  Main results:
    * `commandResult_tells` — a command succeeds exactly when its result came in time with no
      error, for no topic or partition either; else every failure is named, or that the time was
      up;
    * `createTopics_spec`   — what more it takes to create topics, and how long it may take;
    * `createTopics_sent`   — nothing is sent unless all topics and configs are accepted.
-/
import ModernCppKafka.Error
import ModernCppKafka.Lib.DoWhile
import ModernCppKafka.Lib.Joined
import ModernCppKafka.Properties
import ModernCppKafka.RdKafkaHelper

namespace ModernCppKafka.Clients.AdminClient

open ModernCppKafka.Lib.DoWhile
open ModernCppKafka.Lib.Joined

/-! ## §1. Events. -/

/-- `rd_kafka_topic_result_t`. -/
structure TopicResult where
  name : CString
  error : RespErr
  errorString : String

/-- An element of an `rd_kafka_topic_partition_list_t` of results. -/
structure PartitionResult where
  topic : CString
  partition : Partition
  err : RespErr

/-- The types of events that are told apart. -/
inductive EventType where
  | CREATETOPICS_RESULT
  | DELETETOPICS_RESULT
  | DELETERECORDS_RESULT
  | other
  deriving DecidableEq, Repr

/-- `rd_kafka_event_t`; the list of partitions may be a null pointer. -/
structure Event where
  type : EventType
  error : RespErr
  errorString : String
  topics : List TopicResult := []
  partitions : Option (List PartitionResult) := none

variable (rd_kafka_err2str : RespErr → String)

/-! ## §2. Errors. -/

/-- The errors among the results of a command, each with its text. -/
def perResultErrors {α : Type} (code : α → RespErr) (text : α → String) (results : List α) :
    List Error :=
  results.filterMap fun result =>
    if code result ≠ RD_KAFKA_RESP_ERR_NO_ERROR then
      some (.ofMessage (code result) (text result) false)
    else none

def TopicResult.detailedMsg (topicResult : TopicResult) : String :=
  "topic[" ++ topicResult.name.val ++ "] with error[" ++ topicResult.errorString ++ "]"

def PartitionResult.detailedMsg (elem : PartitionResult) : String :=
  "topic-partition[" ++ elem.topic.val ++ "-" ++ toString elem.partition.toInt
    ++ "] with error[" ++ rd_kafka_err2str elem.err ++ "]"

def getPerTopicResults (topicResults : List TopicResult) : List Error :=
  perResultErrors TopicResult.error TopicResult.detailedMsg topicResults

def getPerTopicPartitionResults (partitionResults : Option (List PartitionResult)) : List Error :=
  perResultErrors PartitionResult.err (PartitionResult.detailedMsg rd_kafka_err2str)
    (partitionResults.getD [])

/-- The code of the first error, and the messages of all. -/
def combineErrors (errors : List Error) : Error :=
  match errors with
  | [] => .ofMessage RD_KAFKA_RESP_ERR_NO_ERROR "Success" false
  | error :: _ =>
    .ofMessage error.value
      ((errors.map (Error.message rd_kafka_err2str)).foldl (appendUnlessEmpty "; ") "") false

/-- The error of the event itself, and those of its topics or partitions. -/
def eventErrors (ev : Event) : List Error :=
  (if ev.error ≠ RD_KAFKA_RESP_ERR_NO_ERROR then [.ofMessage ev.error ev.errorString false] else [])
    ++ match ev.type with
      | .DELETERECORDS_RESULT => getPerTopicPartitionResults rd_kafka_err2str ev.partitions
      | _ => getPerTopicResults ev.topics

/-! ## §3. Commands. -/

/-- `rd_kafka_queue_poll` gave an event of the type, or another one, or none. -/
def isResult (type : EventType) (ev : Option Event) : Option Event :=
  ev.filter fun ev => ev.type = type

/-- The loop that waits for the result event; `none` while it goes on.  Events of other types
are released, so no event is left when the time is up. -/
def awaitResult (type : EventType) (polls : List (Turn (Option Event))) :
    Option (Option Event) :=
  (doWhile (isResult type) polls).map fun
    | .broke ev => some ev
    | .timeUp _ => none

def timedOut : Error :=
  .ofMessage RD_KAFKA_RESP_ERR__TIMED_OUT "No response within the time limit" false

/-- What `deleteTopics` and `deleteRecords` make of the polls. -/
def commandResult (type : EventType) (polls : List (Turn (Option Event))) : Option Error :=
  (awaitResult type polls).map fun
    | none => timedOut
    | some ev => combineErrors rd_kafka_err2str (eventErrors rd_kafka_err2str ev)

/-- The names handed to `rd_kafka_DeleteTopics`, and the result. -/
def deleteTopics (topics : Topics) (polls : List (Turn (Option Event))) :
    List CString × Option Error :=
  (topics.sort.map c_str, commandResult rd_kafka_err2str .DELETETOPICS_RESULT polls)

/-- The offsets handed to `rd_kafka_DeleteRecords`, and the result. -/
def deleteRecords (topicPartitionOffsets : TopicPartitionOffsets)
    (polls : List (Turn (Option Event))) : RkTopicPartitionList × Option Error :=
  (createRkTopicPartitionList topicPartitionOffsets,
    commandResult rd_kafka_err2str .DELETERECORDS_RESULT polls)

/-- `ListTopicsResult`. -/
structure ListTopicsResult where
  error : Error := {}
  topics : Topics := ∅

/-- What `rd_kafka_metadata` returns: an error, or the topics it lists. -/
structure MetadataAnswer where
  err : RespErr
  topics : List CString := []

def listTopics (metadata : MetadataAnswer) : ListTopicsResult :=
  if metadata.err ≠ RD_KAFKA_RESP_ERR_NO_ERROR then
    { error := .ofMessage metadata.err (rd_kafka_err2str metadata.err) false }
  else { topics := metadata.topics.foldl (fun names topic => insert topic.val names) ∅ }

/-! ## §4. Creating topics. -/

/-- `rd_kafka_NewTopic_t`. -/
structure NewTopic where
  topic : CString
  numPartitions : Int32
  replicationFactor : Int32
  config : List (CString × CString) := []

/-- What librdkafka says to a new topic and to a config of one. -/
structure Validation where
  rd_kafka_NewTopic_new : CString → Int32 → Int32 → Bool
  rd_kafka_NewTopic_set_config : NewTopic → CString → CString → RespErr

/-- The strings of a topic's config, in the order of their keys. -/
def configStrings {C : ClientTypes} (topicConfig : Properties C) : List (String × String) :=
  topicConfig.map.toList.filterMap fun (k, _) => (topicConfig.getProperty k).map (k, ·)

variable (validation : Validation)

/-- The loop over the config. -/
def setConfig : List (String × String) → NewTopic → Except Error NewTopic
  | [], newTopic => .ok newTopic
  | (k, v) :: config, newTopic =>
    if validation.rd_kafka_NewTopic_set_config newTopic (c_str k) (c_str v)
        ≠ RD_KAFKA_RESP_ERR_NO_ERROR then
      .error (.ofMessage RD_KAFKA_RESP_ERR__INVALID_ARG ("Invalid config[" ++ k ++ "=" ++ v ++ "]")
        false)
    else setConfig config { newTopic with config := newTopic.config ++ [(c_str k, c_str v)] }

/-- The loop over the topics. -/
def newTopics (numPartitions replicationFactor : Int32) (config : List (String × String)) :
    List Topic → Except Error (List NewTopic)
  | [] => .ok []
  | topic :: topics =>
    if validation.rd_kafka_NewTopic_new (c_str topic) numPartitions replicationFactor then do
      let newTopic ← setConfig validation config ⟨c_str topic, numPartitions, replicationFactor, []⟩
      let rest ← newTopics numPartitions replicationFactor config topics
      return newTopic :: rest
    else
      .error (.ofMessage RD_KAFKA_RESP_ERR__INVALID_ARG
        (rd_kafka_err2str RD_KAFKA_RESP_ERR__INVALID_ARG) false)

/-- `listTopics` without an error. -/
def isListed (metadata : MetadataAnswer) : Option Unit :=
  if (listTopics rd_kafka_err2str metadata).error.toBool then none else some ()

/-- The loop that updates the metadata. -/
def updateMetadata (answers : List (Turn MetadataAnswer)) : Option Error :=
  (doWhile (isListed rd_kafka_err2str) answers).map fun
    | .broke () => .ofMessage RD_KAFKA_RESP_ERR_NO_ERROR "Success" false
    | .timeUp _ => .ofMessage RD_KAFKA_RESP_ERR__TIMED_OUT "Updating metadata timed out" false

/-- What follows `rd_kafka_CreateTopics`. -/
def afterCreateTopics (polls : List (Turn (Option Event)))
    (answers : List (Turn MetadataAnswer)) : Option Error :=
  (awaitResult .CREATETOPICS_RESULT polls).bind fun
    | none => some timedOut
    | some ev =>
      match eventErrors rd_kafka_err2str ev with
      | [] => updateMetadata rd_kafka_err2str answers
      | errors => some (combineErrors rd_kafka_err2str errors)

/-- The topics handed to `rd_kafka_CreateTopics` (`none` when it is not called), and the
result. -/
def createTopics {C : ClientTypes} (topics : Topics) (numPartitions replicationFactor : Int32)
    (topicConfig : Properties C) (polls : List (Turn (Option Event)))
    (answers : List (Turn MetadataAnswer)) :
    Option (List NewTopic) × Option Error :=
  match newTopics rd_kafka_err2str validation numPartitions replicationFactor
      (configStrings topicConfig) topics.sort with
  | .error error => (none, some error)
  | .ok rk_topics =>
    (some rk_topics, afterCreateTopics rd_kafka_err2str polls answers)

/-! ## §5. What is reported. -/

theorem value_ofMessage (respErr : RespErr) (text : String) :
    (Error.ofMessage respErr text false).value = respErr := rfl

/-- **The error reported** has the code of the first one, and the texts of all. -/
theorem combineErrors_spec (errors : List Error) :
    (combineErrors rd_kafka_err2str errors).value = (errors.head?.map Error.value).getD 0 ∧
    (combineErrors rd_kafka_err2str errors).message rd_kafka_err2str =
      if errors = [] then "Success"
      else joined "; " ((errors.map (Error.message rd_kafka_err2str)).dropWhile (· = "")) := by
  cases errors with
  | nil => exact ⟨rfl, rfl⟩
  | cons error errors =>
    refine ⟨rfl, ?_⟩
    rw [if_neg (List.cons_ne_nil _ _), ← foldl_unlessEmpty]
    rfl

/-- The codes in a result event, that of the event itself first. -/
def Event.codes (ev : Event) : List RespErr :=
  [ev.error] ++ match ev.type with
    | .DELETERECORDS_RESULT => (ev.partitions.getD []).map PartitionResult.err
    | _ => ev.topics.map TopicResult.error

/-- No error of the event itself, nor of what its type speaks of. -/
def Event.Ok (ev : Event) : Prop := ∀ code ∈ ev.codes, code = RD_KAFKA_RESP_ERR_NO_ERROR

instance (ev : Event) : Decidable ev.Ok := inferInstanceAs (Decidable (∀ _ ∈ _, _))

theorem values_perResultErrors {α : Type} (code : α → RespErr) (text : α → String)
    (results : List α) :
    (perResultErrors code text results).map Error.value = (results.map code).filter (· ≠ 0) := by
  induction results with
  | nil => rfl
  | cons result results ih =>
    by_cases h : code result = 0 <;>
      simpa [perResultErrors, h, RD_KAFKA_RESP_ERR_NO_ERROR, value_ofMessage] using ih

theorem mem_messages_perResultErrors {α : Type} (code : α → RespErr) (text : α → String)
    {results : List α} {result : α} (hin : result ∈ results) (herr : code result ≠ 0) :
    text result ∈ (perResultErrors code text results).map (Error.message rd_kafka_err2str) :=
  List.mem_map.mpr ⟨_, List.mem_filterMap.mpr ⟨result, hin, if_pos herr⟩, rfl⟩

/-- The errors collected have the codes that are errors, in their order. -/
theorem values_eventErrors (ev : Event) :
    (eventErrors rd_kafka_err2str ev).map Error.value = ev.codes.filter (· ≠ 0) := by
  have hfirst : (if ev.error ≠ RD_KAFKA_RESP_ERR_NO_ERROR then
      [Error.ofMessage ev.error ev.errorString false] else []).map Error.value
        = [ev.error].filter (· ≠ 0) := by
    by_cases h : ev.error = 0 <;>
      simp [h, RD_KAFKA_RESP_ERR_NO_ERROR, value_ofMessage]
  rw [eventErrors, Event.codes, List.map_append, List.filter_append, hfirst]
  congr 1
  cases ev.type with
  | DELETERECORDS_RESULT => exact values_perResultErrors _ _ _
  | _ => exact values_perResultErrors _ _ _

theorem eventErrors_eq_nil {ev : Event} : eventErrors rd_kafka_err2str ev = [] ↔ ev.Ok := by
  rw [← List.map_eq_nil_iff (f := Error.value), values_eventErrors, List.filter_eq_nil_iff]
  simp [Event.Ok, RD_KAFKA_RESP_ERR_NO_ERROR]

/-- The code reported is the first that is an error. -/
theorem value_combineErrors (ev : Event) :
    (combineErrors rd_kafka_err2str (eventErrors rd_kafka_err2str ev)).value =
      (ev.codes.find? (· ≠ 0)).getD RD_KAFKA_RESP_ERR_NO_ERROR := by
  rw [(combineErrors_spec rd_kafka_err2str _).1, ← List.head?_map, values_eventErrors,
    List.head?_filter]
  rfl

theorem toBool_combineErrors {ev : Event} :
    (combineErrors rd_kafka_err2str (eventErrors rd_kafka_err2str ev)).toBool = false ↔
      ev.Ok := by
  have hnone : ev.codes.find? (· ≠ 0) = none ↔ ev.Ok := by
    simp [List.find?_eq_none, Event.Ok, RD_KAFKA_RESP_ERR_NO_ERROR]
  rw [Error.toBool, value_combineErrors, ← hnone]
  cases hfirst : ev.codes.find? (· ≠ 0) with
  | none => simp [RD_KAFKA_RESP_ERR_NO_ERROR]
  | some code =>
    have hne : code ≠ 0 := by simpa using List.find?_some hfirst
    simp [hne]

/-- The texts of all that failed. -/
def Event.failures (ev : Event) : List String :=
  match ev.type with
  | .DELETERECORDS_RESULT => ((ev.partitions.getD []).filter (·.err ≠ 0)).map
      (PartitionResult.detailedMsg rd_kafka_err2str)
  | _ => (ev.topics.filter (·.error ≠ 0)).map TopicResult.detailedMsg

theorem TopicResult.detailedMsg_ne (topic : TopicResult) : topic.detailedMsg ≠ "" :=
  append_ne_empty (append_ne_empty (append_ne_empty (append_ne_empty (by decide))))

theorem PartitionResult.detailedMsg_ne (partition : PartitionResult) :
    partition.detailedMsg rd_kafka_err2str ≠ "" :=
  append_ne_empty (append_ne_empty (append_ne_empty (append_ne_empty
    (append_ne_empty (append_ne_empty (by decide))))))

/-- Each failure is among the errors collected, under its text. -/
theorem mem_of_failure {ev : Event} {text : String} (h : text ∈ ev.failures rd_kafka_err2str) :
    text ∈ (eventErrors rd_kafka_err2str ev).map (Error.message rd_kafka_err2str) ∧ text ≠ "" := by
  unfold Event.failures at h
  rw [eventErrors, List.map_append, List.mem_append]
  cases htype : ev.type with
  | DELETERECORDS_RESULT =>
    simp only [htype, List.mem_map, List.mem_filter] at h
    obtain ⟨partition, ⟨hin, herr⟩, rfl⟩ := h
    have hne : partition.err ≠ 0 := by simpa using herr
    exact ⟨Or.inr (mem_messages_perResultErrors rd_kafka_err2str PartitionResult.err
        (PartitionResult.detailedMsg rd_kafka_err2str) hin hne),
      partition.detailedMsg_ne rd_kafka_err2str⟩
  | _ =>
    simp only [htype, List.mem_map, List.mem_filter] at h
    obtain ⟨topic, ⟨hin, herr⟩, rfl⟩ := h
    have hne : topic.error ≠ 0 := by simpa using herr
    exact ⟨Or.inr (mem_messages_perResultErrors rd_kafka_err2str TopicResult.error
        TopicResult.detailedMsg hin hne),
      topic.detailedMsg_ne⟩

/-! ## §6. Commands. -/

/-- The result event came, with nothing but other events and time left before it. -/
def ResultInTime (type : EventType) (polls : List (Turn (Option Event))) (ev : Event) : Prop :=
  ∃ pre turn post, polls = pre ++ turn :: post ∧ (∀ t ∈ pre, GoesOn (isResult type) t) ∧
    turn.got = some ev ∧ ev.type = type

theorem isResult_eq_some {type : EventType} {got : Option Event} {ev : Event} :
    isResult type got = some ev ↔ got = some ev ∧ ev.type = type := by
  simp [isResult, Option.filter_eq_some_iff]

theorem awaitResult_eq_some {type : EventType} {polls : List (Turn (Option Event))} {ev : Event} :
    awaitResult type polls = some (some ev) ↔ ResultInTime type polls ev := by
  have hbroke : awaitResult type polls = some (some ev) ↔
      doWhile (isResult type) polls = some (.broke ev) := by
    unfold awaitResult
    rcases doWhile (isResult type) polls with _ | _ | _ <;> simp
  rw [hbroke, doWhile_broke]
  simp only [isResult_eq_some]
  rfl

theorem awaitResult_eq_none {type : EventType} {polls : List (Turn (Option Event))} :
    awaitResult type polls = none ↔ ∀ turn ∈ polls, GoesOn (isResult type) turn := by
  rw [awaitResult, Option.map_eq_none_iff, doWhile_eq_none]

/-- The wait is over, without the result. -/
def TimeUp (type : EventType) (polls : List (Turn (Option Event))) : Prop :=
  (∃ turn ∈ polls, ¬ GoesOn (isResult type) turn) ∧ ∀ ev, ¬ ResultInTime type polls ev

theorem awaitResult_timeUp {type : EventType} {polls : List (Turn (Option Event))}
    (h : TimeUp type polls) : awaitResult type polls = some none := by
  obtain ⟨⟨turn, hin, hstop⟩, hnot⟩ := h
  rcases hwait : awaitResult type polls with _ | _ | ev
  · exact absurd (awaitResult_eq_none.mp hwait turn hin) hstop
  · rfl
  · exact absurd (awaitResult_eq_some.mp hwait) (hnot ev)

theorem timedOut_toBool : timedOut.toBool = true := rfl

/-- A command that ends well has its result in time, with no error at all. -/
theorem commandResult_ok {type : EventType} {polls : List (Turn (Option Event))} {e : Error}
    (he : commandResult rd_kafka_err2str type polls = some e) (hok : e.toBool = false) :
    ∃ ev, ResultInTime type polls ev ∧ ev.Ok := by
  obtain ⟨ev, hev, rfl⟩ := Option.map_eq_some_iff.mp he
  cases ev with
  | none => simp [timedOut_toBool] at hok
  | some ev =>
    exact ⟨ev, awaitResult_eq_some.mp hev, (toBool_combineErrors rd_kafka_err2str).mp hok⟩

theorem commandResult_of_inTime {type : EventType} {polls : List (Turn (Option Event))}
    {ev : Event} (h : ResultInTime type polls ev) :
    commandResult rd_kafka_err2str type polls =
      some (combineErrors rd_kafka_err2str (eventErrors rd_kafka_err2str ev)) := by
  rw [commandResult, awaitResult_eq_some.mpr h]
  rfl

/-- A command succeeds exactly when its result came in time, with no error at all. -/
theorem commandResult_ok_iff (type : EventType) (polls : List (Turn (Option Event))) :
    (∃ e, commandResult rd_kafka_err2str type polls = some e ∧ e.toBool = false) ↔
      ∃ ev, ResultInTime type polls ev ∧ ev.Ok := by
  constructor
  · intro h
    obtain ⟨e, he, hok⟩ := h
    exact commandResult_ok rd_kafka_err2str he hok
  · intro h
    obtain ⟨ev, hev, hok⟩ := h
    exact ⟨_, commandResult_of_inTime rd_kafka_err2str hev,
      (toBool_combineErrors rd_kafka_err2str).mpr hok⟩

/-- The report names every failure. -/
theorem message_combineErrors {ev : Event} {text : String}
    (h : text ∈ ev.failures rd_kafka_err2str) :
    ∃ before after, (combineErrors rd_kafka_err2str
      (eventErrors rd_kafka_err2str ev)).message rd_kafka_err2str = before ++ text ++ after := by
  obtain ⟨hin, hne⟩ := mem_of_failure rd_kafka_err2str h
  have hsome : eventErrors rd_kafka_err2str ev ≠ [] := by
    intro hnil
    simp [hnil] at hin
  rw [(combineErrors_spec rd_kafka_err2str _).2, if_neg hsome]
  exact mem_joined_dropWhile hin hne

/-- Two topics, of which one exists already. -/
def resultTwo : Event :=
  { type := .CREATETOPICS_RESULT, error := 0, errorString := "",
    topics := [⟨c_str "a", 0, ""⟩, ⟨c_str "b", 36, "exists"⟩] }

/-- What a new topic is made of. -/
def newTopic (numPartitions replicationFactor : Int32) (config : List (String × String))
    (topic : Topic) : NewTopic :=
  ⟨c_str topic, numPartitions, replicationFactor, config.map fun kv => (c_str kv.1, c_str kv.2)⟩

/-- librdkafka accepts the topic, and each string of the config on top of those before it. -/
structure Accepted (numPartitions replicationFactor : Int32) (config : List (String × String))
    (topic : Topic) : Prop where
  valid : validation.rd_kafka_NewTopic_new (c_str topic) numPartitions replicationFactor = true
  config : ∀ pre kv post, config = pre ++ kv :: post →
    validation.rd_kafka_NewTopic_set_config (newTopic numPartitions replicationFactor pre topic)
      (c_str kv.1) (c_str kv.2) = RD_KAFKA_RESP_ERR_NO_ERROR

/-- The result of a loop that ends well just when `P`, and else with an invalid argument. -/
def OkIff {α : Type} (P : Prop) (a : α) (result : Except Error α) : Prop :=
  (P → result = .ok a) ∧
    (¬ P → ∃ e, result = .error e ∧ e.value = RD_KAFKA_RESP_ERR__INVALID_ARG)

/-- The loop over the rest of the config, with `pre` set already. -/
theorem setConfig_spec (numPartitions replicationFactor : Int32) (topic : Topic)
    (pre config : List (String × String)) :
    OkIff (∀ done kv post, config = done ++ kv :: post →
        validation.rd_kafka_NewTopic_set_config
          (newTopic numPartitions replicationFactor (pre ++ done) topic) (c_str kv.1) (c_str kv.2)
            = RD_KAFKA_RESP_ERR_NO_ERROR)
      (newTopic numPartitions replicationFactor (pre ++ config) topic)
      (setConfig validation config (newTopic numPartitions replicationFactor pre topic)) := by
  induction config generalizing pre with
  | nil => exact ⟨fun _ => by rw [List.append_nil]; rfl, fun h => absurd (by simp) h⟩
  | cons kv config ih =>
    obtain ⟨k, v⟩ := kv
    have hset : { newTopic numPartitions replicationFactor pre topic with
        config := (newTopic numPartitions replicationFactor pre topic).config
          ++ [(c_str k, c_str v)] }
        = newTopic numPartitions replicationFactor (pre ++ [(k, v)]) topic := by
      simp [newTopic]
    -- the entry is set after those in `pre`
    obtain ⟨hok, herror⟩ := ih (pre ++ [(k, v)])
    rw [List.append_assoc, List.singleton_append] at hok
    unfold setConfig
    rw [hset]
    constructor
    · intro h
      have hfirst := h [] (k, v) config rfl
      rw [List.append_nil] at hfirst
      rw [if_neg (not_not_intro hfirst)]
      apply hok
      intro done kv post heq
      have := h ((k, v) :: done) kv post (by rw [heq]; rfl)
      simpa using this
    · intro h
      split
      next => exact ⟨_, rfl, rfl⟩
      next hfirst =>
        -- this one is accepted, so it is a later one that is not
        apply herror
        intro hrest
        apply h
        intro done kv post heq
        cases done with
        | nil =>
          obtain ⟨rfl, rfl⟩ : (k, v) = kv ∧ config = post := by simpa using heq
          rw [List.append_nil]
          exact not_not.mp hfirst
        | cons first done =>
          obtain ⟨rfl, htail⟩ : (k, v) = first ∧ config = done ++ kv :: post := by simpa using heq
          simpa using hrest done kv post htail

/-- The config of one topic, from the start. -/
theorem setConfig_of_accepted {numPartitions replicationFactor : Int32}
    {config : List (String × String)} {topic : Topic}
    (h : Accepted validation numPartitions replicationFactor config topic) :
    setConfig validation config ⟨c_str topic, numPartitions, replicationFactor, []⟩ =
      .ok (newTopic numPartitions replicationFactor config topic) :=
  (setConfig_spec validation numPartitions replicationFactor topic [] config).1 h.config

theorem setConfig_of_not_accepted {numPartitions replicationFactor : Int32}
    {config : List (String × String)} {topic : Topic}
    (hvalid : validation.rd_kafka_NewTopic_new (c_str topic) numPartitions replicationFactor = true)
    (h : ¬ Accepted validation numPartitions replicationFactor config topic) :
    ∃ e, setConfig validation config ⟨c_str topic, numPartitions, replicationFactor, []⟩ = .error e ∧
      e.value = RD_KAFKA_RESP_ERR__INVALID_ARG :=
  (setConfig_spec validation numPartitions replicationFactor topic [] config).2
    fun hconfig => h ⟨hvalid, hconfig⟩

/-- The loop over the topics. -/
theorem newTopics_spec (numPartitions replicationFactor : Int32)
    (config : List (String × String)) (topics : List Topic) :
    OkIff (∀ topic ∈ topics, Accepted validation numPartitions replicationFactor config topic)
      (topics.map (newTopic numPartitions replicationFactor config))
      (newTopics rd_kafka_err2str validation numPartitions replicationFactor config topics) := by
  induction topics with
  | nil => exact ⟨fun _ => rfl, fun h => absurd (by simp) h⟩
  | cons topic topics ih =>
    obtain ⟨hok, herror⟩ := ih
    unfold newTopics
    constructor
    · intro h
      have hfirst := h topic List.mem_cons_self
      have hrest := hok fun t ht => h t (List.mem_cons_of_mem topic ht)
      rw [if_pos hfirst.valid, setConfig_of_accepted validation hfirst, hrest]
      rfl
    · intro h
      split
      next hvalid =>
        by_cases hfirst : Accepted validation numPartitions replicationFactor config topic
        · -- this one is accepted, so it is a later one that is not
          obtain ⟨e, he, hvalue⟩ := herror fun hrest =>
            h (List.forall_mem_cons.mpr ⟨hfirst, hrest⟩)
          rw [setConfig_of_accepted validation hfirst, he]
          exact ⟨e, rfl, hvalue⟩
        · obtain ⟨e, he, hvalue⟩ := setConfig_of_not_accepted validation hvalid hfirst
          rw [he]
          exact ⟨e, rfl, hvalue⟩
      next => exact ⟨_, rfl, rfl⟩

/-- What is sent when all topics are accepted, and what is reported when they are not. -/
theorem createTopics_cases {C : ClientTypes} (topics : Topics)
    (numPartitions replicationFactor : Int32) (topicConfig : Properties C)
    (polls : List (Turn (Option Event)))
    (answers : List (Turn MetadataAnswer)) :
    ((∀ topic ∈ topics, Accepted validation numPartitions replicationFactor
        (configStrings topicConfig) topic) ∧
      createTopics rd_kafka_err2str validation topics numPartitions replicationFactor topicConfig
          polls answers =
        (some (topics.sort.map (newTopic numPartitions replicationFactor
            (configStrings topicConfig))),
          afterCreateTopics rd_kafka_err2str polls answers)) ∨
    ((¬ ∀ topic ∈ topics, Accepted validation numPartitions replicationFactor
        (configStrings topicConfig) topic) ∧
      ∃ e, e.value = RD_KAFKA_RESP_ERR__INVALID_ARG ∧
        createTopics rd_kafka_err2str validation topics numPartitions replicationFactor
          topicConfig polls answers = (none, some e)) := by
  obtain ⟨hok, herror⟩ := newTopics_spec rd_kafka_err2str validation numPartitions
    replicationFactor (configStrings topicConfig) topics.sort
  simp only [Finset.mem_sort] at hok herror
  unfold createTopics
  by_cases h : ∀ topic ∈ topics, Accepted validation numPartitions replicationFactor
      (configStrings topicConfig) topic
  · left
    rw [hok h]
    exact ⟨h, rfl⟩
  · right
    obtain ⟨e, he, hvalue⟩ := herror h
    rw [he]
    exact ⟨h, e, hvalue, rfl⟩

/-- The metadata came, with nothing but failures and time left before it. -/
def ListedInTime (answers : List (Turn MetadataAnswer)) : Prop :=
  ∃ pre turn post, answers = pre ++ turn :: post ∧
    (∀ t ∈ pre, t.got.err ≠ RD_KAFKA_RESP_ERR_NO_ERROR ∧ t.inTime = true) ∧
    turn.got.err = RD_KAFKA_RESP_ERR_NO_ERROR

theorem isListed_eq (metadata : MetadataAnswer) :
    isListed rd_kafka_err2str metadata =
      if metadata.err = RD_KAFKA_RESP_ERR_NO_ERROR then some () else none := by
  unfold isListed listTopics
  by_cases h : metadata.err = RD_KAFKA_RESP_ERR_NO_ERROR
  · simp [h, Error.toBool, Error.value]
    rfl
  · have hne : metadata.err ≠ 0 := h
    simp [h, hne, Error.toBool, value_ofMessage]

theorem updateMetadata_ok_iff (answers : List (Turn MetadataAnswer)) :
    (∃ e, updateMetadata rd_kafka_err2str answers = some e ∧ e.toBool = false) ↔
      ListedInTime answers := by
  have hbroke : (∃ e, updateMetadata rd_kafka_err2str answers = some e ∧ e.toBool = false) ↔
      doWhile (isListed rd_kafka_err2str) answers = some (.broke ()) := by
    unfold updateMetadata
    rcases doWhile (isListed rd_kafka_err2str) answers with _ | _ | _ <;>
      simp [Error.toBool, value_ofMessage, RD_KAFKA_RESP_ERR_NO_ERROR,
        RD_KAFKA_RESP_ERR__TIMED_OUT]
  rw [hbroke, doWhile_broke]
  simp [ListedInTime, GoesOn, isListed_eq]

/-- The metadata cannot be listed yet, and there is time left. -/
def StillUnlisted (answers : List (Turn MetadataAnswer)) : Prop :=
  ∀ turn ∈ answers, turn.got.err ≠ RD_KAFKA_RESP_ERR_NO_ERROR ∧ turn.inTime = true

theorem updateMetadata_eq_none (answers : List (Turn MetadataAnswer)) :
    updateMetadata rd_kafka_err2str answers = none ↔ StillUnlisted answers := by
  rw [updateMetadata, Option.map_eq_none_iff, doWhile_eq_none]
  simp [StillUnlisted, GoesOn, isListed_eq]

theorem afterCreateTopics_eq_none (polls : List (Turn (Option Event)))
    (answers : List (Turn MetadataAnswer)) :
    afterCreateTopics rd_kafka_err2str polls answers = none ↔
      (∀ turn ∈ polls, GoesOn (isResult .CREATETOPICS_RESULT) turn) ∨
      (∃ ev, ResultInTime .CREATETOPICS_RESULT polls ev ∧ ev.Ok) ∧ StillUnlisted answers := by
  rw [← awaitResult_eq_none, ← updateMetadata_eq_none rd_kafka_err2str]
  simp only [← awaitResult_eq_some]
  unfold afterCreateTopics
  rcases awaitResult .CREATETOPICS_RESULT polls with _ | _ | ev
  · simp
  · simp
  · have hev : (∃ ev', some (some ev) = some (some ev') ∧ ev'.Ok) ↔ ev.Ok := by simp
    rw [hev, ← eventErrors_eq_nil rd_kafka_err2str, Option.bind_some]
    cases herrors : eventErrors rd_kafka_err2str ev <;> simp [herrors]

theorem afterCreateTopics_ok_iff (polls : List (Turn (Option Event)))
    (answers : List (Turn MetadataAnswer)) :
    (∃ e, afterCreateTopics rd_kafka_err2str polls answers = some e ∧ e.toBool = false) ↔
      (∃ ev, ResultInTime .CREATETOPICS_RESULT polls ev ∧ ev.Ok) ∧ ListedInTime answers := by
  rw [← updateMetadata_ok_iff rd_kafka_err2str]
  simp only [← awaitResult_eq_some]
  unfold afterCreateTopics
  rcases awaitResult .CREATETOPICS_RESULT polls with _ | _ | ev
  · simp
  · simp [timedOut_toBool]
  · have hev : (∃ ev', some (some ev) = some (some ev') ∧ ev'.Ok) ↔ ev.Ok := by simp
    rw [hev, ← eventErrors_eq_nil rd_kafka_err2str, Option.bind_some]
    cases herrors : eventErrors rd_kafka_err2str ev with
    | nil => simp [herrors]
    | cons e errors =>
      -- an error was collected, and is reported
      have hnot : ¬ ev.Ok := by
        rw [← eventErrors_eq_nil rd_kafka_err2str, herrors]
        simp
      have hbool := mt (toBool_combineErrors rd_kafka_err2str).mp hnot
      rw [herrors] at hbool
      simpa [herrors] using hbool

/-- **Creating topics succeeds** exactly when all are accepted, the result comes in time with no
error, and the metadata can be listed before the time is up; and it goes on exactly as long as
it waits for the one or for the other. -/
theorem createTopics_spec {C : ClientTypes} (topics : Topics)
    (numPartitions replicationFactor : Int32) (topicConfig : Properties C)
    (polls : List (Turn (Option Event))) (answers : List (Turn MetadataAnswer)) :
    ((∃ e, (createTopics rd_kafka_err2str validation topics numPartitions replicationFactor
        topicConfig polls answers).2 = some e ∧ e.toBool = false) ↔
      (∀ topic ∈ topics, Accepted validation numPartitions replicationFactor
        (configStrings topicConfig) topic) ∧
      (∃ ev, ResultInTime .CREATETOPICS_RESULT polls ev ∧ ev.Ok) ∧ ListedInTime answers) ∧
    ((createTopics rd_kafka_err2str validation topics numPartitions replicationFactor
        topicConfig polls answers).2 = none ↔
      (∀ topic ∈ topics, Accepted validation numPartitions replicationFactor
        (configStrings topicConfig) topic) ∧
      ((∀ turn ∈ polls, GoesOn (isResult .CREATETOPICS_RESULT) turn) ∨
        (∃ ev, ResultInTime .CREATETOPICS_RESULT polls ev ∧ ev.Ok) ∧ StillUnlisted answers)) := by
  rw [← afterCreateTopics_ok_iff rd_kafka_err2str, ← afterCreateTopics_eq_none rd_kafka_err2str]
  cases createTopics_cases rd_kafka_err2str validation topics numPartitions replicationFactor
    topicConfig polls answers with
  | inl h =>
    obtain ⟨haccepted, hresult⟩ := h
    rw [hresult]
    exact ⟨⟨fun hok => ⟨haccepted, hok⟩, fun hok => hok.2⟩,
      ⟨fun hnone => ⟨haccepted, hnone⟩, fun hnone => hnone.2⟩⟩
  | inr h =>
    obtain ⟨hrejected, e, hvalue, hresult⟩ := h
    rw [hresult]
    refine ⟨⟨fun hok => ?_, fun hok => absurd hok.1 hrejected⟩,
      ⟨fun hnone => by simp at hnone, fun hnone => absurd hnone.1 hrejected⟩⟩
    -- INVALID_ARG is no success
    obtain ⟨e', he, hok⟩ := hok
    obtain rfl : e = e' := by simpa using he
    simp [Error.toBool, hvalue, RD_KAFKA_RESP_ERR__INVALID_ARG] at hok

/-- **What is sent**: all topics with the whole config, or nothing at all. -/
theorem createTopics_sent {C : ClientTypes} (topics : Topics)
    (numPartitions replicationFactor : Int32) (topicConfig : Properties C)
    (polls : List (Turn (Option Event))) (answers : List (Turn MetadataAnswer)) :
    (∀ sent, (createTopics rd_kafka_err2str validation topics numPartitions replicationFactor
        topicConfig polls answers).1 = some sent ↔
      (∀ topic ∈ topics, Accepted validation numPartitions replicationFactor
        (configStrings topicConfig) topic) ∧
      sent = topics.sort.map (newTopic numPartitions replicationFactor
        (configStrings topicConfig))) ∧
    ((createTopics rd_kafka_err2str validation topics numPartitions replicationFactor topicConfig
        polls answers).1 = none →
      ∃ e, (createTopics rd_kafka_err2str validation topics numPartitions replicationFactor
        topicConfig polls answers).2 = some e ∧ e.value = RD_KAFKA_RESP_ERR__INVALID_ARG) := by
  cases createTopics_cases rd_kafka_err2str validation topics numPartitions replicationFactor
    topicConfig polls answers with
  | inl h =>
    obtain ⟨haccepted, hresult⟩ := h
    rw [hresult]
    refine ⟨fun sent => ?_, fun hnone => by simp at hnone⟩
    rw [Option.some_inj]
    exact ⟨fun heq => ⟨haccepted, heq.symm⟩, fun h => h.2.symm⟩
  | inr h =>
    obtain ⟨hrejected, e, hvalue, hresult⟩ := h
    rw [hresult]
    refine ⟨fun sent => ?_, fun _ => ⟨e, rfl, hvalue⟩⟩
    exact ⟨fun hsome => by simp at hsome, fun h => absurd h.1 hrejected⟩

end ModernCppKafka.Clients.AdminClient
