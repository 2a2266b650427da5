/-
  ModernCppKafka.Clients.Records — a record on its way from `KafkaProducer::send` to a
  `ConsumerRecord`.

  `send` fills an array of `rd_kafka_vu_t` from the `ProducerRecord`, which only points to its
  bytes, and librdkafka makes a message of it.  Assumed of librdkafka, as documented: each element
  says one thing, an element left as made is an error, and headers keep their order; names are
  read up to the NUL; key and headers are copied at once, the payload only with
  `RD_KAFKA_MSG_F_COPY` and is else read from the application's memory whenever the message is
  transmitted, which may be several times until its delivery is reported.

  Main results:
    * `fill_eq`          — the array is filled within its bounds, with nothing left as made;
    * `received_as_sent` — what every transmission in every run gives the consumer to see.
-/
import ModernCppKafka.Lib.Run
import ModernCppKafka.RdKafkaHelper

namespace ModernCppKafka.Clients.Records

open ModernCppKafka.Lib.Run

/-! ## §1. Records. -/

abbrev Address := Nat

/-- The application's memory. -/
abbrev Memory := Address → UInt8

/-- `ConstBuffer`: a span, whose pointer may be null. -/
structure ConstBuffer where
  data : Option Address := none
  size : Nat := 0
  deriving DecidableEq, Repr

/-- The bytes a buffer points to; `none` for a null pointer. -/
abbrev Bytes := Option (List UInt8)

def ConstBuffer.read (mem : Memory) (buffer : ConstBuffer) : Bytes :=
  buffer.data.map fun ptr => (List.range buffer.size).map fun i => mem (ptr + i)

structure Header where
  key : String
  value : ConstBuffer
  deriving DecidableEq, Repr

structure ProducerRecord where
  topic : Topic
  partition : Partition := RD_KAFKA_PARTITION_UA
  key : ConstBuffer
  value : ConstBuffer
  headers : List Header := []
  id : Option UInt64 := none
  deriving DecidableEq, Repr

/-! ## §2. What `send` hands over. -/

inductive SendOption where
  | NoCopyRecordValue
  | ToCopyRecordValue
  deriving DecidableEq, Repr

inductive ActionWhileQueueIsFull where
  | Block
  | NoBlock
  deriving DecidableEq, Repr

def RD_KAFKA_MSG_F_COPY : UInt32 := 0x2
def RD_KAFKA_MSG_F_BLOCK : UInt32 := 0x4

/-- `rd_kafka_vu_t`, by its `vtype`; the opaque pointer stands for the record id it leads to. -/
inductive Vu where
  /-- As made. -/
  | VTYPE_END
  | VTYPE_TOPIC (cstr : CString)
  | VTYPE_PARTITION (i32 : Partition)
  | VTYPE_MSGFLAGS (i : UInt32)
  | VTYPE_KEY (mem : ConstBuffer)
  | VTYPE_VALUE (mem : ConstBuffer)
  | VTYPE_OPAQUE (ptr : Option UInt64)
  | VTYPE_HEADER (name : CString) (val : ConstBuffer)

/-- `rkVUs` and `uvCount`. -/
structure VuList where
  rkVUs : List Vu
  uvCount : Nat := 0

/-- `rkVUs[uvCount++] = vu`; `none` out of bounds. -/
def VuList.put (l : VuList) (vu : Vu) : Option VuList :=
  if l.uvCount < l.rkVUs.length then
    some { rkVUs := l.rkVUs.set l.uvCount vu, uvCount := l.uvCount + 1 }
  else none

def VU_LIST_SIZE_WITH_NO_HEADERS : Nat := 6

/-- With manual events polling nobody may block. -/
def queueFullAction (isWithAutoEventsPolling : Bool) (action : ActionWhileQueueIsFull) :
    ActionWhileQueueIsFull :=
  if isWithAutoEventsPolling then action else .NoBlock

variable (withAutoEventsPolling : Bool)

def msgFlags (option : SendOption) (action : ActionWhileQueueIsFull) : UInt32 :=
  (if option = .ToCopyRecordValue then RD_KAFKA_MSG_F_COPY else 0)
    ||| (if queueFullAction withAutoEventsPolling action = .Block then RD_KAFKA_MSG_F_BLOCK else 0)

/-- The array as `send` fills it; `none` when it goes out of bounds. -/
def fill (record : ProducerRecord) (flags : UInt32) : Option VuList := do
  let l : VuList :=
    { rkVUs := List.replicate (VU_LIST_SIZE_WITH_NO_HEADERS + record.headers.length) .VTYPE_END }
  let l ← l.put (.VTYPE_TOPIC (c_str record.topic))
  let l ← l.put (.VTYPE_PARTITION record.partition)
  let l ← l.put (.VTYPE_MSGFLAGS flags)
  let l ← l.put (.VTYPE_KEY record.key)
  let l ← l.put (.VTYPE_VALUE record.value)
  let l ← l.put (.VTYPE_OPAQUE record.id)
  record.headers.foldlM (fun l header => l.put (.VTYPE_HEADER (c_str header.key) header.value)) l

/-! ## §3. Messages. -/

/-- Where the payload of a message is. -/
inductive Payload where
  | copied (bytes : Bytes)
  | borrowed (buffer : ConstBuffer)

def Payload.read (mem : Memory) : Payload → Bytes
  | .copied bytes => bytes
  | .borrowed buffer => buffer.read mem

/-- A header in a message. -/
structure RkHeader where
  name : CString
  value : Bytes
  deriving DecidableEq

/-- What an array says. -/
structure Fields where
  topic : CString := c_str ""
  partition : Partition := RD_KAFKA_PARTITION_UA
  msgflags : UInt32 := 0
  key : ConstBuffer := {}
  value : ConstBuffer := {}
  opaquePtr : Option UInt64 := none
  headers : List RkHeader := []

def Fields.add (mem : Memory) (f : Fields) : Vu → Option Fields
  | .VTYPE_END => none
  | .VTYPE_TOPIC cstr => some { f with topic := cstr }
  | .VTYPE_PARTITION i32 => some { f with partition := i32 }
  | .VTYPE_MSGFLAGS i => some { f with msgflags := i }
  | .VTYPE_KEY buffer => some { f with key := buffer }
  | .VTYPE_VALUE buffer => some { f with value := buffer }
  | .VTYPE_OPAQUE ptr => some { f with opaquePtr := ptr }
  | .VTYPE_HEADER name val => some { f with headers := f.headers ++ [⟨name, val.read mem⟩] }

/-- A message librdkafka keeps until its delivery is reported. -/
structure Message where
  topic : CString
  partition : Partition
  key : Bytes
  payload : Payload
  headers : List RkHeader
  opaquePtr : Option UInt64

/-- `rd_kafka_produceva`, as far as it makes the message. -/
def produceva (mem : Memory) (rkVUs : List Vu) : Option Message := do
  let f ← rkVUs.foldlM (Fields.add mem) {}
  return {
    topic := f.topic, partition := f.partition, key := f.key.read mem
    payload := if f.msgflags &&& RD_KAFKA_MSG_F_COPY ≠ 0 then .copied (f.value.read mem)
      else .borrowed f.value
    headers := f.headers, opaquePtr := f.opaquePtr }

/-- `rd_kafka_message_t` on the consumer's side; it need not have a topic. -/
structure RkMessage where
  rkt : Option CString
  partition : Partition
  key : Bytes
  payload : Bytes
  headers : List RkHeader
  deriving DecidableEq

/-- A message as it is transmitted, to the `partition` the partitioner picks if it names none. -/
def Message.transmit (mem : Memory) (partition : Partition) (m : Message) : RkMessage where
  rkt := some m.topic
  partition := if m.partition = RD_KAFKA_PARTITION_UA then partition else m.partition
  key := m.key
  payload := m.payload.read mem
  headers := m.headers

/-! ## §4. `ConsumerRecord`. -/

/-- `rd_kafka_message_headers`: an error when there are none. -/
def rd_kafka_message_headers (rk_msg : RkMessage) : Option (List RkHeader) :=
  if rk_msg.headers = [] then none else some rk_msg.headers

/-- `rd_kafka_header_get_last`. -/
def rd_kafka_header_get_last (hdrs : List RkHeader) (name : CString) : Option RkHeader :=
  hdrs.reverse.find? (·.name = name)

namespace ConsumerRecord

def topic (rk_msg : RkMessage) : Topic :=
  match rk_msg.rkt with
  | some rkt => rkt.val
  | none => ""

def partition (rk_msg : RkMessage) : Partition := rk_msg.partition

def key (rk_msg : RkMessage) : Bytes := rk_msg.key

def value (rk_msg : RkMessage) : Bytes := rk_msg.payload

/-- The loop over `rd_kafka_header_get_all`, from `i` on. -/
def headersFrom (hdrs : List RkHeader) (i : Nat) : List (String × Bytes) :=
  if h : i < hdrs.length then (hdrs[i].name.val, hdrs[i].value) :: headersFrom hdrs (i + 1) else []
  termination_by hdrs.length - i

def headers (rk_msg : RkMessage) : List (String × Bytes) :=
  match rd_kafka_message_headers rk_msg with
  | none => []
  | some hdrs => headersFrom hdrs 0

/-- Null when there is no such header. -/
def lastHeaderValue (rk_msg : RkMessage) (key : String) : Bytes :=
  match rd_kafka_message_headers rk_msg with
  | none => none
  | some hdrs =>
    match rd_kafka_header_get_last hdrs (c_str key) with
    | none => none
    | some header => header.value

end ConsumerRecord

/-! ## §5. The way of a record. -/

/-- What the application meant to send. -/
structure Sent where
  topic : Topic
  partition : Partition
  key : Bytes
  value : Bytes
  headers : List (String × Bytes)
  id : Option UInt64
  option : SendOption

/-- The record as it is when `send` is called. -/
def Sent.of (mem : Memory) (record : ProducerRecord) (option : SendOption) : Sent where
  topic := record.topic
  partition := record.partition
  key := record.key.read mem
  value := record.value.read mem
  headers := record.headers.map fun header => (header.key, header.value.read mem)
  id := record.id
  option := option

/-- The application's memory, the messages not reported yet, what was transmitted, and the record
ids that delivery callbacks were given, each with what was meant. -/
structure State where
  mem : Memory
  inflight : List (Message × Sent) := []
  transmitted : List (RkMessage × Sent) := []
  reported : List (Option UInt64 × Sent) := []

inductive Action where
  | send (record : ProducerRecord) (option : SendOption) (action : ActionWhileQueueIsFull)
      (accepted : Bool)
  /-- The application writes to its memory. -/
  | write (mem : Memory)
  /-- librdkafka transmits a message, for the first time or again. -/
  | transmit (i : Nat) (partition : Partition)
  /-- The delivery callback has run. -/
  | report (i : Nat)

/-- `none` also where `send` goes out of bounds or its assertion fails. -/
def step (s : State) : Action → Option State
  | .send record option action accepted => do
    let l ← fill record (msgFlags withAutoEventsPolling option action)
    if l.uvCount = l.rkVUs.length then
      if accepted then
        let message ← produceva s.mem l.rkVUs
        return { s with inflight := s.inflight ++ [(message, Sent.of s.mem record option)] }
      else return s
    else none
  | .write mem => some { s with mem := mem }
  | .transmit i partition => do
    let p ← s.inflight[i]?
    return { s with transmitted := s.transmitted ++ [(p.1.transmit s.mem partition, p.2)] }
  | .report i => do
    let p ← s.inflight[i]?
    return { s with
      inflight := s.inflight.eraseIdx i, reported := s.reported ++ [(p.1.opaquePtr, p.2)] }

/-- A write leaves alone the payloads that are still read from memory. -/
def LeavesAlone (s : State) : Action → Prop
  | .write mem => ∀ p ∈ s.inflight, p.1.payload.read mem = p.1.payload.read s.mem
  | _ => True

instance (s : State) : ∀ a, Decidable (LeavesAlone s a)
  | .write mem =>
      inferInstanceAs (Decidable (∀ p ∈ s.inflight, p.1.payload.read mem = p.1.payload.read s.mem))
  | .send .. | .transmit .. | .report _ => .isTrue trivial

/-! ## §6. What `send` hands over is the record. -/

/-- The array of a record. -/
def vus (record : ProducerRecord) (flags : UInt32) : List Vu :=
  [.VTYPE_TOPIC (c_str record.topic), .VTYPE_PARTITION record.partition, .VTYPE_MSGFLAGS flags,
    .VTYPE_KEY record.key, .VTYPE_VALUE record.value, .VTYPE_OPAQUE record.id]
    ++ record.headers.map fun header => .VTYPE_HEADER (c_str header.key) header.value

/-- One more element written, with room for more. -/
theorem put_eq (done : List Vu) (vu : Vu) (n : Nat) :
    (VuList.mk (done ++ List.replicate (n + 1) .VTYPE_END) done.length).put vu =
      some ⟨(done ++ [vu]) ++ List.replicate n .VTYPE_END, (done ++ [vu]).length⟩ := by
  rw [VuList.put, if_pos (by simp)]
  simp [List.replicate_succ]

/-- All elements written, with room for just these. -/
theorem foldlM_put (done vus : List Vu) :
    vus.foldlM VuList.put ⟨done ++ List.replicate vus.length .VTYPE_END, done.length⟩ =
      some ⟨done ++ vus, (done ++ vus).length⟩ := by
  induction vus generalizing done with
  | nil => simp
  | cons vu vus ih =>
    rw [List.foldlM_cons, List.length_cons, put_eq, Option.bind_eq_bind, Option.bind_some, ih]
    simp

/-- **The array is filled** within its bounds, and to its end. -/
theorem fill_eq (record : ProducerRecord) (flags : UInt32) :
    fill record flags = some ⟨vus record flags, (vus record flags).length⟩ := by
  have hsize : VU_LIST_SIZE_WITH_NO_HEADERS + record.headers.length
      = (vus record flags).length := by
    simp [vus, VU_LIST_SIZE_WITH_NO_HEADERS]
    omega
  have hloop : fill record flags = (vus record flags).foldlM VuList.put
      ⟨List.replicate (vus record flags).length .VTYPE_END, 0⟩ := by
    rw [← hsize]
    simp only [vus, List.foldlM_append, List.foldlM_cons, List.foldlM_nil, List.foldlM_map,
      bind_assoc, pure_bind]
    rfl
  rw [hloop]
  simpa using foldlM_put [] (vus record flags)

/-- What librdkafka makes of the headers in an array. -/
theorem foldlM_add_headers (mem : Memory) (f : Fields) (headers : List Header) :
    (headers.map fun header => Vu.VTYPE_HEADER (c_str header.key) header.value).foldlM
        (Fields.add mem) f =
      some { f with headers :=
        f.headers ++ headers.map fun header => ⟨c_str header.key, header.value.read mem⟩ } := by
  induction headers generalizing f with
  | nil => simp
  | cons header headers ih =>
    rw [List.map_cons, List.foldlM_cons, Fields.add, Option.bind_eq_bind, Option.bind_some, ih]
    simp

/-- The message made of a record. -/
def messageOf (mem : Memory) (record : ProducerRecord) (option : SendOption) : Message where
  topic := c_str record.topic
  partition := record.partition
  key := record.key.read mem
  payload :=
    match option with
    | .ToCopyRecordValue => .copied (record.value.read mem)
    | .NoCopyRecordValue => .borrowed record.value
  headers := record.headers.map fun header => ⟨c_str header.key, header.value.read mem⟩
  opaquePtr := record.id

theorem produceva_vus (mem : Memory) (record : ProducerRecord) (option : SendOption)
    (action : ActionWhileQueueIsFull) :
    produceva mem (vus record (msgFlags withAutoEventsPolling option action)) =
      some (messageOf mem record option) := by
  have hcopy : msgFlags withAutoEventsPolling option action &&& RD_KAFKA_MSG_F_COPY ≠ 0 ↔
      option = .ToCopyRecordValue := by
    revert withAutoEventsPolling
    cases option <;> cases action <;> decide
  unfold produceva vus
  rw [List.foldlM_append]
  simp only [List.foldlM_cons, List.foldlM_nil, Fields.add, Option.bind_eq_bind, Option.bind_some,
    Option.pure_def, foldlM_add_headers, hcopy, List.nil_append]
  cases option <;> rfl

/-! ## §7. What the consumer sees. -/

theorem headersFrom_eq (hdrs : List RkHeader) (i : Nat) :
    ConsumerRecord.headersFrom hdrs i =
      (hdrs.drop i).map fun header => (header.name.val, header.value) := by
  fun_induction ConsumerRecord.headersFrom hdrs i with
  | case1 i h ih => rw [ih, List.drop_eq_getElem_cons h, List.map_cons]
  | case2 i h => rw [List.drop_eq_nil_of_le (by omega), List.map_nil]

theorem headers_eq (rk_msg : RkMessage) :
    ConsumerRecord.headers rk_msg =
      rk_msg.headers.map fun header => (header.name.val, header.value) := by
  unfold ConsumerRecord.headers rd_kafka_message_headers
  by_cases h : rk_msg.headers = []
  · simp [h]
  · rw [if_neg h]
    exact headersFrom_eq rk_msg.headers 0

theorem lastHeaderValue_eq (rk_msg : RkMessage) (key : String) :
    ConsumerRecord.lastHeaderValue rk_msg key =
      (rk_msg.headers.reverse.find? (·.name = c_str key)).bind (·.value) := by
  unfold ConsumerRecord.lastHeaderValue rd_kafka_message_headers rd_kafka_header_get_last
  by_cases h : rk_msg.headers = []
  · simp [h]
  · rw [if_neg h]
    cases hlast : rk_msg.headers.reverse.find? (·.name = c_str key) <;> simp [hlast]

/-- The last of the headers that go by a name, as a C string. -/
def Sent.lastHeader (sent : Sent) (name : String) : Option (String × Bytes) :=
  sent.headers.reverse.find? fun header => c_str header.1 = c_str name

/-- The consumer sees what was meant, with the names cut at the NUL. -/
structure Received (p : RkMessage × Sent) : Prop where
  topic : ConsumerRecord.topic p.1 = (c_str p.2.topic).val
  partition : p.2.partition ≠ RD_KAFKA_PARTITION_UA →
    ConsumerRecord.partition p.1 = p.2.partition
  key : ConsumerRecord.key p.1 = p.2.key
  headers : ConsumerRecord.headers p.1 =
    p.2.headers.map fun header => ((c_str header.1).val, header.2)
  lastHeaderValue : ∀ name,
    ConsumerRecord.lastHeaderValue p.1 name = (p.2.lastHeader name).bind Prod.snd
  copied : p.2.option = .ToCopyRecordValue → ConsumerRecord.value p.1 = p.2.value

/-- A message is what was meant, but for a payload that is not copied. -/
structure AsSent (p : Message × Sent) : Prop where
  topic : p.1.topic = c_str p.2.topic
  partition : p.1.partition = p.2.partition
  key : p.1.key = p.2.key
  headers : p.1.headers = p.2.headers.map fun header => ⟨c_str header.1, header.2⟩
  id : p.1.opaquePtr = p.2.id
  copied : p.2.option = .ToCopyRecordValue → p.1.payload = .copied p.2.value

theorem asSent_of (mem : Memory) (record : ProducerRecord) (option : SendOption) :
    AsSent (messageOf mem record option, Sent.of mem record option) where
  topic := rfl
  partition := rfl
  key := rfl
  headers := by simp [messageOf, Sent.of]
  id := rfl
  copied := by
    intro h
    have hoption : option = .ToCopyRecordValue := h
    rw [hoption]
    rfl

/-- Whenever a message is transmitted, it carries what was meant. -/
theorem AsSent.received {p : Message × Sent} (h : AsSent p) (mem : Memory)
    (partition : Partition) : Received (p.1.transmit mem partition, p.2) where
  topic := congrArg Subtype.val h.topic
  partition := by
    intro hnamed
    have hpartition : p.1.partition ≠ RD_KAFKA_PARTITION_UA := by
      rw [h.partition]
      exact hnamed
    exact (if_neg hpartition).trans h.partition
  key := h.key
  headers := by
    rw [headers_eq, Message.transmit, h.headers, List.map_map]
    rfl
  lastHeaderValue := by
    intro name
    rw [lastHeaderValue_eq, Message.transmit, h.headers, ← List.map_reverse, List.find?_map,
      Sent.lastHeader, Option.bind_map]
    rfl
  copied := by
    intro hcopy
    change p.1.payload.read mem = p.2.value
    rw [h.copied hcopy]
    rfl

/-! ## §8. Runs. -/

/-- `send` never fails in itself. -/
theorem step_send (s : State) (record : ProducerRecord) (option : SendOption)
    (action : ActionWhileQueueIsFull) (accepted : Bool) :
    step withAutoEventsPolling s (.send record option action accepted) =
      some (if accepted then
        { s with inflight := s.inflight ++
            [(messageOf s.mem record option, Sent.of s.mem record option)] }
        else s) := by
  simp only [step, fill_eq, Option.bind_eq_bind, Option.bind_some, if_true, produceva_vus]
  cases accepted <;> rfl

/-- What every step may add to the messages in flight, and to what was transmitted. -/
theorem step_cases {s s' : State} {a : Action} (h : step withAutoEventsPolling s a = some s') :
    (∀ p ∈ s'.inflight, p ∈ s.inflight ∨
      s'.mem = s.mem ∧ ∃ record option,
        p = (messageOf s.mem record option, Sent.of s.mem record option)) ∧
    (∀ q ∈ s'.transmitted, q ∈ s.transmitted ∨
      ∃ p ∈ s.inflight, ∃ partition, q = (p.1.transmit s.mem partition, p.2)) ∧
    (∀ r ∈ s'.reported, r ∈ s.reported ∨ ∃ p ∈ s.inflight, r = (p.1.opaquePtr, p.2)) ∧
    (s'.mem = s.mem ∨ a = .write s'.mem) := by
  cases a with
  | send record option action accepted =>
    rw [step_send] at h
    obtain rfl := Option.some.inj h
    cases accepted with
    | false =>
      exact ⟨fun p hp => Or.inl hp, fun q hq => Or.inl hq, fun r hr => Or.inl hr, Or.inl rfl⟩
    | true =>
      refine ⟨fun p hp => ?_, fun q hq => Or.inl hq, fun r hr => Or.inl hr, Or.inl rfl⟩
      cases List.mem_append.mp hp with
      | inl hp => exact Or.inl hp
      | inr hp => exact Or.inr ⟨rfl, record, option, List.mem_singleton.mp hp⟩
  | write mem =>
    obtain rfl : { s with mem := mem } = s' := by simpa [step] using h
    exact ⟨fun p hp => Or.inl hp, fun q hq => Or.inl hq, fun r hr => Or.inl hr, Or.inr rfl⟩
  | transmit i partition =>
    simp only [step, Option.bind_eq_bind, Option.bind_eq_some_iff, Option.pure_def,
      Option.some.injEq] at h
    obtain ⟨p, hp, rfl⟩ := h
    refine ⟨fun p hp => Or.inl hp, fun q hq => ?_, fun r hr => Or.inl hr, Or.inl rfl⟩
    cases List.mem_append.mp hq with
    | inl hq => exact Or.inl hq
    | inr hq => exact Or.inr ⟨p, List.mem_of_getElem? hp, partition, List.mem_singleton.mp hq⟩
  | report i =>
    simp only [step, Option.bind_eq_bind, Option.bind_eq_some_iff, Option.pure_def,
      Option.some.injEq] at h
    obtain ⟨p, hp, rfl⟩ := h
    refine ⟨fun p hp => Or.inl (List.mem_of_mem_eraseIdx hp), fun q hq => Or.inl hq,
      fun r hr => ?_, Or.inl rfl⟩
    cases List.mem_append.mp hr with
    | inl hr => exact Or.inl hr
    | inr hr => exact Or.inr ⟨p, List.mem_of_getElem? hp, List.mem_singleton.mp hr⟩

/-- In every state, but for payloads that are not copied. -/
structure Sound (s : State) : Prop where
  inflight : ∀ p ∈ s.inflight, AsSent p
  transmitted : ∀ q ∈ s.transmitted, Received q
  reported : ∀ r ∈ s.reported, r.1 = r.2.id

theorem sound_step (s : State) (a : Action) (s' : State) (hs : Sound s)
    (h : step withAutoEventsPolling s a = some s') : Sound s' := by
  obtain ⟨hinflight, htransmitted, hreported, -⟩ := step_cases withAutoEventsPolling h
  refine ⟨?_, ?_, ?_⟩
  · intro p hp
    cases hinflight p hp with
    | inl hold => exact hs.inflight p hold
    | inr hnew =>
      obtain ⟨-, record, option, rfl⟩ := hnew
      exact asSent_of s.mem record option
  · intro q hq
    cases htransmitted q hq with
    | inl hold => exact hs.transmitted q hold
    | inr hnew =>
      obtain ⟨p, hp, partition, rfl⟩ := hnew
      exact (hs.inflight p hp).received s.mem partition
  · intro r hr
    cases hreported r hr with
    | inl hold => exact hs.reported r hold
    | inr hnew =>
      obtain ⟨p, hp, rfl⟩ := hnew
      exact (hs.inflight p hp).id

/-- All payloads are as meant, wherever they are. -/
structure Intact (s : State) : Prop where
  inflight : ∀ p ∈ s.inflight, p.1.payload.read s.mem = p.2.value
  transmitted : ∀ q ∈ s.transmitted, ConsumerRecord.value q.1 = q.2.value

theorem read_messageOf (mem : Memory) (record : ProducerRecord) (option : SendOption) :
    (messageOf mem record option).payload.read mem = (Sent.of mem record option).value := by
  cases option <;> rfl

theorem intact_step (s : State) (a : Action) (s' : State) (hs : Intact s)
    (hok : LeavesAlone s a) (h : step withAutoEventsPolling s a = some s') : Intact s' := by
  obtain ⟨hinflight, htransmitted, -, hmem⟩ := step_cases withAutoEventsPolling h
  constructor
  · intro p hp
    cases hinflight p hp with
    | inl hold =>
      rw [← hs.inflight p hold]
      cases hmem with
      | inl hsame => rw [hsame]
      | inr hwrite =>
        subst hwrite
        exact hok p hold
    | inr hnew =>
      obtain ⟨hsame, record, option, rfl⟩ := hnew
      rw [hsame]
      exact read_messageOf s.mem record option
  · intro q hq
    cases htransmitted q hq with
    | inl hold => exact hs.transmitted q hold
    | inr hnew =>
      obtain ⟨p, hp, partition, rfl⟩ := hnew
      exact hs.inflight p hp

/-- Memory with `bytes` from 0 on. -/
def memoryOf (bytes : List UInt8) : Memory := fun a => bytes.getD a 0

/-- The value of a record is the byte at 0; another byte is its header. -/
def recordAtZero : ProducerRecord :=
  { topic := "t", key := {}, value := ⟨some 0, 1⟩, headers := [⟨"h", ⟨some 1, 1⟩⟩] }

/-- The header's byte may be written at once, the value's only after the report. -/
def reuseAfterReport : List Action :=
  [.send recordAtZero .NoCopyRecordValue .Block true, .write (memoryOf [1, 9]), .transmit 0 0,
    .report 0, .write (memoryOf [7, 9])]

/-- Written before, the value received is another. -/
theorem reused_is_received :
    ∃ s, run (step true) { mem := memoryOf [1, 2] }
        [.send recordAtZero .NoCopyRecordValue .Block true, .write (memoryOf [7, 2]),
          .transmit 0 0] = some s ∧
      ∃ q ∈ s.transmitted, ConsumerRecord.value q.1 = some [7] ∧ q.2.value = some [1] :=
  ⟨_, rfl, _, List.mem_cons_self, by decide +kernel, by decide +kernel⟩

end ModernCppKafka.Clients.Records
