/-
  ModernCppKafka.Producer.RecordMetadata — the metadata of include/kafka/ProducerCommon.h.

  A `RecordMetadata` either looks at a live message or holds a cache, which is what copies get; one
  made by the default constructor has neither, and every observer but `recordId` then goes through
  a null pointer.  `none` is such a run.

  Main results:
    * `observe_assign`        — a copy shows what its source shows, whatever becomes of the
      message;
    * `isValue_iff`           — an object is a value exactly when it has a message or a cache;
    * `run_isValue_iff`       — so, over all runs, unless it is default-constructed and nothing
      has been assigned to it;
    * `default_is_no_value`   — then it is not.
-/
import ModernCppKafka.Lib.Run
import ModernCppKafka.RdKafkaHelper

namespace ModernCppKafka.Producer

open ModernCppKafka.Lib.Run

/-! ## §1. Messages and timestamps. -/

/-- `rd_kafka_timestamp_type_t`. -/
inductive RkTimestampType where
  | RD_KAFKA_TIMESTAMP_NOT_AVAILABLE
  | RD_KAFKA_TIMESTAMP_CREATE_TIME
  | RD_KAFKA_TIMESTAMP_LOG_APPEND_TIME
  deriving DecidableEq, Repr

/-- `rd_kafka_msg_status_t`. -/
inductive RkMsgStatus where
  | RD_KAFKA_MSG_STATUS_NOT_PERSISTED
  | RD_KAFKA_MSG_STATUS_POSSIBLY_PERSISTED
  | RD_KAFKA_MSG_STATUS_PERSISTED
  deriving DecidableEq, Repr

/-- `rd_kafka_message_t` of a delivered message, with what librdkafka's accessors return: the name
of its topic (`rkt` may be null), its timestamp and its status. -/
structure RkMessage where
  rkt : Option CString
  partition : Partition
  len : UInt64
  key_len : UInt64
  offset : Offset
  timestamp : Int64
  tstype : RkTimestampType
  status : RkMsgStatus

/-- `Timestamp::Type`. -/
inductive TimestampType where
  | NotAvailable | CreateTime | LogAppendTime
  deriving DecidableEq, Repr

/-- `Timestamp`. -/
structure Timestamp where
  msSinceEpoch : Int64
  type : TimestampType
  deriving DecidableEq, Repr

def Timestamp.convertType : RkTimestampType → TimestampType
  | .RD_KAFKA_TIMESTAMP_CREATE_TIME => .CreateTime
  | .RD_KAFKA_TIMESTAMP_LOG_APPEND_TIME => .LogAppendTime
  | _ => .NotAvailable

def TimestampType.toString : TimestampType → String
  | .CreateTime => "CreateTime"
  | .LogAppendTime => "LogAppendTime"
  | .NotAvailable => ""

/-- `Timestamp::toString()`; how a time is printed depends on the time zone. -/
def Timestamp.toString (timeString : Int64 → String) (ts : Timestamp) : String :=
  if ts.type.toString.isEmpty then timeString ts.msSinceEpoch
  else ts.type.toString ++ "[" ++ timeString ts.msSinceEpoch ++ "]"

/-- `RecordMetadata::PersistedStatus`. -/
inductive PersistedStatus where
  | Not | Possibly | Done
  deriving DecidableEq, Repr

/-! ## §2. The class. -/

/-- `RecordMetadata::CachedInfo`. -/
structure CachedInfo where
  topic : String
  partition : Partition
  offset : Offset
  keySize : UInt64
  valueSize : UInt64
  timestamp : Timestamp
  persistedStatus : PersistedStatus

/-- Where the messages are. -/
abbrev Address := ℕ

/-- `ProducerRecord::Id` is 64 bits wide. -/
structure RecordMetadata where
  _cachedInfo : Option CachedInfo := none
  _rkmsg : Option Address := none
  _recordId : Option UInt64 := none

def getMsgTimestamp (rkmsg : RkMessage) : Timestamp :=
  ⟨rkmsg.timestamp, Timestamp.convertType rkmsg.tstype⟩

def getMsgPersistedStatus (rkmsg : RkMessage) : PersistedStatus :=
  if rkmsg.status = .RD_KAFKA_MSG_STATUS_NOT_PERSISTED then .Not
  else if rkmsg.status = .RD_KAFKA_MSG_STATUS_PERSISTED then .Done else .Possibly

def getPersistedStatusString (status : PersistedStatus) : String :=
  if status = .Not then "NotPersisted"
  else if status = .Done then "Persisted" else "PossiblyPersisted"

namespace RecordMetadata

section Observers

variable (mem : Address → RkMessage) (md : RecordMetadata)

/-- `_rkmsg ? … : _cachedInfo->…`, which every observer is made of. -/
def select {α : Type} (ofMessage : RkMessage → α) (ofCache : CachedInfo → α) : Option α :=
  match md._rkmsg with
  | some rkmsg => some (ofMessage (mem rkmsg))
  | none => md._cachedInfo.map ofCache

def topic : Option String :=
  md.select mem (fun rkmsg => match rkmsg.rkt with | some name => name.val | none => "") (·.topic)

def partition : Option Partition := md.select mem (·.partition) (·.partition)

def offset : Option (Option Offset) := do
  let offset ← md.select mem (·.offset) (·.offset)
  return if offset ≠ RD_KAFKA_OFFSET_INVALID then some offset else none

def recordId : Option UInt64 := md._recordId

def keySize : Option UInt64 := md.select mem (·.key_len) (·.keySize)

def valueSize : Option UInt64 := md.select mem (·.len) (·.valueSize)

def timestamp : Option Timestamp := md.select mem getMsgTimestamp (·.timestamp)

def persistedStatus : Option PersistedStatus :=
  md.select mem getMsgPersistedStatus (·.persistedStatus)

def persistedStatusString : Option String :=
  (md.persistedStatus mem).map getPersistedStatusString

def toString (timeString : Int64 → String) : Option String := do
  let offsetOption ← md.offset mem
  let recordIdOption := md.recordId
  return (← md.topic mem) ++ "-" ++ ToString.toString (← md.partition mem) ++ "@"
    ++ (match offsetOption with | some offset => ToString.toString offset | none => "NA")
    ++ (match recordIdOption with | some id => ":id[" ++ ToString.toString id ++ "]," | none => ",")
    ++ (← md.timestamp mem).toString timeString ++ "," ++ (← md.persistedStatusString mem)

end Observers

/-- `operator=` from another object; its observers make the cache. -/
def assign (_target : RecordMetadata) (mem : Address → RkMessage) (another : RecordMetadata) :
    Option RecordMetadata := do
  let offsetOption ← another.offset mem
  let cachedInfo : CachedInfo :=
    { topic := ← another.topic mem
      partition := ← another.partition mem
      offset := offsetOption.getD RD_KAFKA_OFFSET_INVALID
      keySize := ← another.keySize mem
      valueSize := ← another.valueSize mem
      timestamp := ← another.timestamp mem
      persistedStatus := ← another.persistedStatus mem }
  return { _cachedInfo := some cachedInfo, _rkmsg := none, _recordId := another._recordId }

/-- The copy constructor. -/
def copy (mem : Address → RkMessage) (another : RecordMetadata) : Option RecordMetadata :=
  assign {} mem another

/-- The constructor that the delivery callback uses. -/
def ofMessage (rkmsg : Address) (recordId : Option UInt64) : RecordMetadata :=
  { _rkmsg := some rkmsg, _recordId := recordId }

/-! ## §3. What an object shows. -/

/-- What all the observers return. -/
structure Observed where
  topic : String
  partition : Partition
  offset : Option Offset
  recordId : Option UInt64
  keySize : UInt64
  valueSize : UInt64
  timestamp : Timestamp
  persistedStatus : PersistedStatus
  persistedStatusString : String
  string : String

/-- Every observer in turn; `none` as soon as one goes through a null pointer. -/
def observe (timeString : Int64 → String) (mem : Address → RkMessage) (md : RecordMetadata) :
    Option Observed := do
  return { topic := ← md.topic mem
           partition := ← md.partition mem
           offset := ← md.offset mem
           recordId := md.recordId
           keySize := ← md.keySize mem
           valueSize := ← md.valueSize mem
           timestamp := ← md.timestamp mem
           persistedStatus := ← md.persistedStatus mem
           persistedStatusString := ← md.persistedStatusString mem
           string := ← md.toString mem timeString }

/-- The cache that describes a message. -/
def cacheOf (rkmsg : RkMessage) : CachedInfo where
  topic := match rkmsg.rkt with | some name => name.val | none => ""
  partition := rkmsg.partition
  offset := rkmsg.offset
  keySize := rkmsg.key_len
  valueSize := rkmsg.len
  timestamp := getMsgTimestamp rkmsg
  persistedStatus := getMsgPersistedStatus rkmsg

/-- What the observers read, in either representation. -/
def info (mem : Address → RkMessage) (md : RecordMetadata) : Option CachedInfo :=
  md.select mem cacheOf id

variable {timeString : Int64 → String} {mem mem' : Address → RkMessage} {md md' : RecordMetadata}

theorem select_eq {α : Type} {ofMessage : RkMessage → α} {ofCache : CachedInfo → α}
    (h : ∀ rkmsg, ofMessage rkmsg = ofCache (cacheOf rkmsg)) :
    md.select mem ofMessage ofCache = (md.info mem).map ofCache := by
  rw [info, select, select]
  cases md._rkmsg with
  | none => rw [Option.map_id, id]
  | some rkmsg => exact congrArg some (h _)

theorem topic_eq : md.topic mem = (md.info mem).map (·.topic) := select_eq fun _ => rfl

theorem partition_eq : md.partition mem = (md.info mem).map (·.partition) := select_eq fun _ => rfl

theorem offset_eq : md.offset mem = (md.info mem).map fun i =>
    if i.offset ≠ RD_KAFKA_OFFSET_INVALID then some i.offset else none := by
  have hread : md.select mem (·.offset) (·.offset) = (md.info mem).map (·.offset) :=
    select_eq fun _ => rfl
  rw [offset, hread]
  cases md.info mem <;> rfl

theorem keySize_eq : md.keySize mem = (md.info mem).map (·.keySize) := select_eq fun _ => rfl

theorem valueSize_eq : md.valueSize mem = (md.info mem).map (·.valueSize) := select_eq fun _ => rfl

theorem timestamp_eq : md.timestamp mem = (md.info mem).map (·.timestamp) := select_eq fun _ => rfl

theorem persistedStatus_eq : md.persistedStatus mem = (md.info mem).map (·.persistedStatus) :=
  select_eq fun _ => rfl

/-- Objects with the same information and id show the same. -/
theorem observe_congr (hinfo : md.info mem = md'.info mem') (hid : md._recordId = md'._recordId) :
    md.observe timeString mem = md'.observe timeString mem' := by
  simp only [observe, toString, persistedStatusString, recordId, topic_eq, partition_eq, offset_eq,
    keySize_eq, valueSize_eq, timestamp_eq, persistedStatus_eq, hinfo, hid]

/-- Without information the first observer already fails, with it none does. -/
theorem isSome_observe : (md.observe timeString mem).isSome ↔ (md.info mem).isSome := by
  simp only [observe, toString, persistedStatusString, topic_eq, partition_eq, offset_eq,
    keySize_eq, valueSize_eq, timestamp_eq, persistedStatus_eq]
  cases md.info mem <;> simp

/-- The offset's sentinel stands for itself, so a cache is an exact copy. -/
theorem assign_eq (target : RecordMetadata) :
    target.assign mem md = (md.info mem).map fun i =>
      { _cachedInfo := some i, _rkmsg := none, _recordId := md._recordId } := by
  simp only [assign, topic_eq, partition_eq, offset_eq, keySize_eq, valueSize_eq, timestamp_eq,
    persistedStatus_eq]
  cases md.info mem with
  | none => rfl
  | some i =>
    have hoffset : (if i.offset ≠ RD_KAFKA_OFFSET_INVALID then some i.offset else none).getD
        RD_KAFKA_OFFSET_INVALID = i.offset := by
      split
      · rfl
      · next h => exact (not_not.mp h).symm
    show some (⟨some { i with offset := _ }, none, md._recordId⟩ : RecordMetadata) = _
    rw [hoffset]
    rfl

/-- **A copy shows what its source shows**, whatever becomes of the messages. -/
theorem observe_assign {target c : RecordMetadata} (h : target.assign mem md = some c)
    (mem' : Address → RkMessage) : c.observe timeString mem' = md.observe timeString mem := by
  rw [assign_eq] at h
  obtain ⟨i, hi, rfl⟩ := Option.map_eq_some_iff.mp h
  exact observe_congr hi.symm rfl

/-- A value: every observer is defined, and so is every copy, by construction or by assignment to
any object; the copy shows the same, whatever becomes of the messages. -/
structure IsValue (timeString : Int64 → String) (mem : Address → RkMessage)
    (md : RecordMetadata) : Prop where
  observed : (md.observe timeString mem).isSome
  copied : ∀ target : RecordMetadata, ∃ c, target.assign mem md = some c ∧
    ∀ mem', c.observe timeString mem' = md.observe timeString mem

/-- **A value has a message or a cache**, and nothing else is asked of it. -/
theorem isValue_iff : md.IsValue timeString mem ↔ (md.info mem).isSome := by
  constructor
  · intro h
    exact isSome_observe.mp h.observed
  · intro h
    refine ⟨isSome_observe.mpr h, fun target => ?_⟩
    obtain ⟨i, hi⟩ := Option.isSome_iff_exists.mp h
    have hassign : target.assign mem md = some ⟨some i, none, md._recordId⟩ := by
      rw [assign_eq, hi]
      rfl
    exact ⟨_, hassign, observe_assign hassign⟩

end RecordMetadata

/-! ## §4. Programs. -/

/-- An object, and whether it was default-constructed and nothing has been assigned to it
since. -/
structure TrackedMetadata where
  md : RecordMetadata
  unassigned : Bool

/-- The messages' memory and the objects made so far. -/
structure MetadataState where
  mem : Address → RkMessage
  objs : List TrackedMetadata

/-- A statement about objects made so far (one that names none is skipped), or a message that is
delivered, perhaps where another one was. -/
inductive MetadataStatement where
  | default
  | ofMessage (rkmsg : Address) (recordId : Option UInt64)
  | copy (i : ℕ)
  | assign (i j : ℕ)
  | observe (i : ℕ)
  | deliver (rkmsg : Address) (message : RkMessage)

namespace MetadataState

open RecordMetadata

variable (timeString : Int64 → String)

def execute (s : MetadataState) : MetadataStatement → Option MetadataState
  | .default => some { s with objs := s.objs ++ [⟨{}, true⟩] }
  | .ofMessage rkmsg recordId =>
    some { s with objs := s.objs ++ [⟨RecordMetadata.ofMessage rkmsg recordId, false⟩] }
  | .copy i =>
    match s.objs[i]? with
    | none => some s
    | some another => (RecordMetadata.copy s.mem another.md).map fun md =>
      { s with objs := s.objs ++ [⟨md, false⟩] }
  | .assign i j =>
    match s.objs[i]?, s.objs[j]? with
    | some target, some another =>
      -- `this != &another`
      if i ≠ j then (target.md.assign s.mem another.md).map fun md =>
        { s with objs := s.objs.set i ⟨md, false⟩ }
      else some s
    | _, _ => some s
  | .observe i =>
    match s.objs[i]? with
    | none => some s
    | some obj => (obj.md.observe timeString s.mem).map fun _ => s
  | .deliver rkmsg message => some { s with mem := Function.update s.mem rkmsg message }

/-- What a statement reads is not an object left as the default constructor made it. -/
def ReadsAssigned (s : MetadataState) : MetadataStatement → Prop
  | .copy i | .observe i => ∀ obj, s.objs[i]? = some obj → obj.unassigned = false
  | .assign i j => i ≠ j → ∀ target, s.objs[i]? = some target →
      ∀ another, s.objs[j]? = some another → another.unassigned = false
  | _ => True

/-- The mark says which objects have neither a message nor a cache. -/
def Marked (s : MetadataState) : Prop :=
  ∀ obj ∈ s.objs, ∀ mem, (obj.md.info mem).isSome ↔ obj.unassigned = false

theorem Marked.append {s : MetadataState} (h : s.Marked) {obj : TrackedMetadata}
    (hobj : ∀ mem, (obj.md.info mem).isSome ↔ obj.unassigned = false) :
    Marked { s with objs := s.objs ++ [obj] } := by
  intro obj' hmem
  rcases List.mem_append.mp hmem with hold | hnew
  · exact h obj' hold
  · rwa [List.mem_singleton.mp hnew]

theorem Marked.set {s : MetadataState} (h : s.Marked) {obj : TrackedMetadata}
    (hobj : ∀ mem, (obj.md.info mem).isSome ↔ obj.unassigned = false) (i : ℕ) :
    Marked { s with objs := s.objs.set i obj } := by
  intro obj' hmem
  rcases List.mem_or_eq_of_mem_set hmem with hold | rfl
  · exact h obj' hold
  · exact hobj

/-- What an assignment makes has a cache. -/
theorem info_of_assign {target md c : RecordMetadata} {mem : Address → RkMessage}
    (h : target.assign mem md = some c) (mem' : Address → RkMessage) : (c.info mem').isSome := by
  rw [assign_eq] at h
  obtain ⟨i, -, rfl⟩ := Option.map_eq_some_iff.mp h
  rfl

/-- A statement keeps the marks right. -/
theorem marked_execute {s s' : MetadataState} {st : MetadataStatement} (h : s.Marked)
    (hstep : s.execute timeString st = some s') : s'.Marked := by
  cases st with
  | default =>
    obtain rfl := Option.some.inj hstep
    exact h.append fun mem => by simp [info, select]
  | ofMessage rkmsg recordId =>
    obtain rfl := Option.some.inj hstep
    exact h.append fun mem => by simp [info, select, RecordMetadata.ofMessage]
  | copy i =>
    rw [execute] at hstep
    cases hi : s.objs[i]? with
    | none =>
      rw [hi] at hstep
      obtain rfl := Option.some.inj hstep
      exact h
    | some another =>
      rw [hi] at hstep
      obtain ⟨md, hcopy, rfl⟩ := Option.map_eq_some_iff.mp hstep
      exact h.append fun mem => by simp [info_of_assign hcopy]
  | assign i j =>
    rw [execute] at hstep
    split at hstep
    · split at hstep
      · obtain ⟨md, hassign, rfl⟩ := Option.map_eq_some_iff.mp hstep
        exact h.set (fun mem => by simp [info_of_assign hassign]) i
      · obtain rfl := Option.some.inj hstep
        exact h
    · obtain rfl := Option.some.inj hstep
      exact h
  | observe i =>
    rw [execute] at hstep
    cases hi : s.objs[i]? with
    | none =>
      rw [hi] at hstep
      obtain rfl := Option.some.inj hstep
      exact h
    | some obj =>
      rw [hi] at hstep
      obtain ⟨-, -, rfl⟩ := Option.map_eq_some_iff.mp hstep
      exact h
  | deliver rkmsg message =>
    obtain rfl := Option.some.inj hstep
    exact h

/-- A statement is defined exactly when what it reads has been assigned. -/
theorem isSome_execute {s : MetadataState} {st : MetadataStatement} (h : s.Marked) :
    (s.execute timeString st).isSome ↔ s.ReadsAssigned st := by
  have hat : ∀ {i : ℕ} {obj : TrackedMetadata}, s.objs[i]? = some obj →
      ((obj.md.info s.mem).isSome ↔ obj.unassigned = false) :=
    fun hobj => h _ (List.mem_of_getElem? hobj) s.mem
  cases st with
  | default => simp [execute, ReadsAssigned]
  | ofMessage rkmsg recordId => simp [execute, ReadsAssigned]
  | deliver rkmsg message => simp [execute, ReadsAssigned]
  | copy i =>
    rw [execute, ReadsAssigned]
    cases hi : s.objs[i]? with
    | none => simp
    | some another => simpa [RecordMetadata.copy, assign_eq] using hat hi
  | observe i =>
    rw [execute, ReadsAssigned]
    cases hi : s.objs[i]? with
    | none => simp
    | some obj => simpa [isSome_observe] using hat hi
  | assign i j =>
    rw [execute, ReadsAssigned]
    cases hi : s.objs[i]? with
    | none => simp
    | some target =>
      cases hj : s.objs[j]? with
      | none => simp
      | some another =>
        by_cases hij : i = j
        · simp [hij]
        · simpa [hij, assign_eq] using hat hj

/-- **Value types, over every program**: it runs to its end exactly when each object it reads has
been made from a message, by copying, or assigned to; and of the objects it makes, these are the
values. -/
theorem run_isValue_iff (mem : Address → RkMessage) (sts : List MetadataStatement) :
    ((run (execute timeString) ⟨mem, []⟩ sts).isSome ↔
      Along (execute timeString) ReadsAssigned ⟨mem, []⟩ sts) ∧
    (∀ s, run (execute timeString) ⟨mem, []⟩ sts = some s → ∀ obj ∈ s.objs,
      (obj.md.IsValue timeString s.mem ↔ obj.unassigned = false)) := by
  have hinit : Marked ⟨mem, []⟩ := by simp [Marked]
  constructor
  · exact run_isSome_iff_along (fun s st s' => marked_execute timeString)
      (fun s st h => isSome_execute timeString h) hinit
  · intro s hrun obj hobj
    have hmarked : s.Marked := run_invariant (fun s st s' => marked_execute timeString) hinit hrun
    rw [isValue_iff]
    exact hmarked obj hobj s.mem

/-- `RecordMetadata{}.topic()` goes through a null pointer, and so does copying it. -/
theorem default_is_no_value :
    let mem : Address → RkMessage := fun _ =>
      ⟨none, 0, 0, 0, 0, 0, .RD_KAFKA_TIMESTAMP_NOT_AVAILABLE, .RD_KAFKA_MSG_STATUS_NOT_PERSISTED⟩
    run (execute fun _ => "") ⟨mem, []⟩ [.default] = some ⟨mem, [⟨{}, true⟩]⟩ ∧
      ({} : RecordMetadata).topic mem = none ∧ RecordMetadata.copy mem {} = none ∧
      ¬ ({} : RecordMetadata).IsValue (fun _ => "") mem := by
  refine ⟨rfl, rfl, rfl, fun h => ?_⟩
  have hinfo := isValue_iff.mp h
  cases hinfo

end MetadataState

end ModernCppKafka.Producer
