/-
  ModernCppKafka.Producer.SyncSend — `KafkaProducer::syncSend`, on any number of threads.

  The delivery callback of a `syncSend` writes the error and the metadata to locals of the thread
  that waits for them, through references.  It runs on whichever thread serves the report: the one
  that polls events in the background, one that calls `pollEvents` or `flush`, or the one in
  `close`.  `KafkaProducer` and its handle are those of the deliveries; `report` is what librdkafka
  reports of each message, and the memory it reports in is reused.

  Main results:
    * `syncSend_own`     — no callback outlives the locals it writes to, and what a `syncSend`
      returns or throws is what became of its own record;
    * `syncSend_returns` — all of them return once events are polled, and none of them before.
-/
import ModernCppKafka.Error
import ModernCppKafka.Lib.Progress
import ModernCppKafka.Producer.Delivery
import ModernCppKafka.Producer.RecordMetadata

namespace ModernCppKafka.Producer.SyncSend

open ModernCppKafka.Lib.Progress
open ModernCppKafka.Lib.Run

variable {n : ℕ}

/-! ## §1. The system. -/

/-- The message librdkafka reports, where it puts it for the callback, and its `err`. -/
structure Report where
  rkmsg : Address
  message : RkMessage
  err : RespErr

/-- A call of `syncSend`: the opaque pointer and the id of its record, and its locals. -/
structure Call where
  msg : MsgId
  recordId : Option UInt64
  deliveryResult : Option Error := none
  recordMetadata : RecordMetadata := {}

inductive Thread where
  | idle
  /-- In `delivered.wait`. -/
  | waiting (call : Call)
  | returned (call : Call)
  | threw (call : Call) (e : KafkaException)

def Thread.isWaiting : Thread → Bool
  | .waiting _ => true
  | _ => false

/-- The callback of a `syncSend` is the thread whose locals it refers to. -/
structure DeliveryCbOpaque (n : ℕ) where
  _recordId : Option UInt64
  _deliveryCb : Option (Fin n)

structure System (n : ℕ) where
  producer : KafkaProducer := {}
  /-- The `_private` of each message. -/
  opaques : MsgId → DeliveryCbOpaque n := fun _ => ⟨none, none⟩
  mem : Address → RkMessage
  threads : Fin n → Thread := fun _ => .idle

def start (mem : Address → RkMessage) : System n := { mem }

inductive Action (n : ℕ) where
  /-- A thread calls `syncSend`, or somebody `send` with another callback. -/
  | send (caller : Option (Fin n)) (recordId : Option UInt64) (sendResult : Option RdKafkaError)
  /-- The wait of a `syncSend` ends. -/
  | wake (t : Fin n)
  /-- What else goes on with the producer. -/
  | other (a : ProducerAction)
  /-- The memory of a message is reused. -/
  | reuse (rkmsg : Address) (message : RkMessage)

/-- The callback that `syncSend` passes to `send`. -/
def Call.deliveryCb (call : Call) (mem : Address → RkMessage) (metadata : RecordMetadata)
    (error : Error) : Option Call :=
  (call.recordMetadata.assign mem metadata).map fun recordMetadata =>
    { call with deliveryResult := some error.copy, recordMetadata }

/-- The end of `syncSend`. -/
def Call.finish (call : Call) (deliveryResult : Error) : Thread :=
  match throwIfWithError deliveryResult with
  | .error e => .threw call e
  | .ok () => .returned call

namespace System

def setThread (s : System n) (t : Option (Fin n)) (thread : Thread) : System n :=
  match t with
  | some t => { s with threads := Function.update s.threads t thread }
  | none => s

def isBusy (s : System n) : Option (Fin n) → Bool
  | some t => (s.threads t).isWaiting
  | none => false

/-- What `send` has done when `rd_kafka_produceva` returned `sendResult`. -/
def sent (s : System n) (caller : Option (Fin n)) (recordId : Option UInt64)
    (sendResult : Option RdKafkaError) (producer : KafkaProducer) : System n :=
  let call : Call := { msg := s.producer.handle.nextId, recordId }
  match throwIfWithError (.ofRkError sendResult) with
  | .error e => ({ s with producer } : System n).setThread caller (.threw call e)
  | .ok () =>
    ({ s with
      producer
      opaques := Function.update s.opaques call.msg ⟨recordId, caller⟩ } : System n).setThread
      caller (.waiting call)

variable (report : MsgId → Report)

/-- `KafkaProducer::deliveryCallback`.  Of a `syncSend` that has ended there are no locals any
more. -/
def deliveryCallback (s : System n) (m : MsgId) : Option (System n) :=
  let mem := Function.update s.mem (report m).rkmsg (report m).message
  match (s.opaques m)._deliveryCb with
  | none => some { s with mem }
  | some t =>
    match s.threads t with
    | .waiting call =>
      if call.msg = m then
        (call.deliveryCb mem (.ofMessage (report m).rkmsg (s.opaques m)._recordId)
          (.ofRespErr (report m).err)).map fun call =>
            { s with mem, threads := Function.update s.threads t (.waiting call) }
      else none
    | _ => none

/-- The callbacks of the reports served, in order. -/
def deliveryCallbacks (s : System n) : List MsgId → Option (System n)
  | [] => some s
  | m :: ms => (s.deliveryCallback report m).bind (·.deliveryCallbacks ms)

def step (s : System n) : Action n → Option (System n)
  | .send caller recordId sendResult =>
    if s.isBusy caller then none
    else
      (s.producer.step (.send !(Error.ofRkError sendResult).toBool)).map
        (s.sent caller recordId sendResult)
  | .wake t =>
    match s.threads t with
    | .waiting call => call.deliveryResult.map fun deliveryResult =>
      { s with threads := Function.update s.threads t (call.finish deliveryResult) }
    | _ => none
  | .other (.send _) => none
  | .other a =>
    (s.producer.step a).bind fun producer =>
      ({ s with producer } : System n).deliveryCallbacks report
        (producer.handle.invoked.drop s.producer.handle.invoked.length)
  | .reuse rkmsg message => some { s with mem := Function.update s.mem rkmsg message }

end System

/-! ## §2. What the producer does with the messages. -/

/-- Some reports are served, whose callbacks are `ran`; nothing is taken or refused. -/
structure Moves (p p' : Handle) (ran : List MsgId) : Prop where
  invoked : p'.invoked = p.invoked ++ ran
  held : (p.reports ++ p.inflight).Perm (ran ++ (p'.reports ++ p'.inflight))
  accepted : p'.accepted = p.accepted
  rejected : p'.rejected = p.rejected

theorem Moves.refl (p : Handle) : Moves p p [] := ⟨(List.append_nil _).symm, .refl _, rfl, rfl⟩

theorem moves_resolve {p p' : Handle} {m : MsgId} (h : p.resolve m = some p') :
    Moves p p' [] := by
  obtain ⟨hm, rfl⟩ := Handle.resolve_eq_some.mp h
  refine ⟨(List.append_nil _).symm, ?_, rfl, rfl⟩
  show (p.reports ++ p.inflight).Perm (p.reports ++ [m] ++ p.inflight.erase m)
  rw [List.append_assoc]
  exact (List.perm_cons_erase hm).append_left p.reports

theorem moves_serve {p p' : Handle} {choice : Choice} (h : p.serve choice = some p') :
    ∃ ran, Moves p p' ran := by
  rcases Handle.serve_cases h with ⟨m, reports, -, hrep, rfl⟩ | ⟨errors, -, -, rfl⟩
  · exact ⟨[m], rfl, by rw [hrep]; exact .refl _, rfl, rfl⟩
  · exact ⟨[], (List.append_nil _).symm, .refl _, rfl, rfl⟩

theorem moves_purge (p : Handle) : Moves p p.purge [] :=
  ⟨(List.append_nil _).symm, by simp [Handle.purge], rfl, rfl⟩

theorem moves_pollAll (p : Handle) : Moves p p.pollAll p.reports :=
  ⟨rfl, by simp [Handle.pollAll], rfl, rfl⟩

theorem moves_closeStep {infinite : Bool} {stage : CloseStage} {choice : Choice} {p p' : Handle}
    {stage' : Option CloseStage} (h : closeStep infinite stage choice p = some (stage', p')) :
    ∃ ran, Moves p p' ran := by
  rcases closeStep_cases h with ⟨-, -, rfl, -⟩ | ⟨-, -, rfl, -⟩ | ⟨-, -, hserve⟩ |
    ⟨-, -, rfl⟩ | ⟨-, -, rfl⟩
  · exact ⟨[], .refl _⟩
  · exact ⟨[], .refl _⟩
  · exact moves_serve hserve
  · exact ⟨[], moves_purge p⟩
  · exact ⟨p.reports, moves_pollAll p⟩

/-- **Whatever goes on** with a producer besides `send`. -/
theorem moves_step {q q' : KafkaProducer} {a : ProducerAction} (ha : ∀ accepted, a ≠ .send accepted)
    (h : q.step a = some q') : ∃ ran, Moves q.handle q'.handle ran := by
  cases a with
  | send accepted => exact absurd rfl (ha accepted)
  | poll choice =>
    obtain ⟨-, p, hp, rfl⟩ := KafkaProducer.step_poll h
    exact moves_serve hp
  | purge =>
    obtain ⟨-, rfl⟩ := KafkaProducer.step_purge h
    exact ⟨[], moves_purge q.handle⟩
  | close infinite =>
    obtain ⟨-, rfl⟩ := KafkaProducer.step_close h
    exact ⟨[], .refl q.handle⟩
  | closeStep choice =>
    obtain ⟨infinite, stage, stage', p, -, hcs, rfl⟩ := KafkaProducer.step_closeStep h
    exact moves_closeStep hcs
  | resolve m =>
    obtain ⟨p, hp, rfl⟩ := KafkaProducer.step_resolve h
    exact ⟨[], moves_resolve hp⟩
  | raiseFatal =>
    obtain rfl : q.withHandle q.handle.raiseFatal = q' := by simpa [KafkaProducer.step] using h
    exact ⟨[], (List.append_nil _).symm, .refl _, rfl, rfl⟩

/-! ## §3. The invariant. -/

section Invariant

variable (report : MsgId → Report)

/-- The messages whose callbacks have not run: `pending` are reports being served. -/
def System.outstanding (s : System n) (pending : List MsgId) : List MsgId :=
  pending ++ (s.producer.handle.reports ++ s.producer.handle.inflight)

/-- The callback has run: the locals tell what became of the record. -/
structure Filled (call : Call) (error : Error) : Prop where
  error : error = Error.ofRespErr (report call.msg).err
  metadata : call.recordMetadata = {
    _cachedInfo := some (RecordMetadata.cacheOf (report call.msg).message)
    _rkmsg := none
    _recordId := call.recordId }

def ThreadSound (s : System n) (pending : List MsgId) (t : Fin n) : Thread → Prop
  | .idle => True
  | .waiting call =>
    s.opaques call.msg = ⟨call.recordId, some t⟩ ∧ call.msg ∈ s.producer.handle.accepted ∧
      match call.deliveryResult with
      | none => call.msg ∈ s.outstanding pending
      | some error => call.msg ∉ s.outstanding pending ∧ Filled report call error
  | .returned call => Filled report call (.ofRespErr RD_KAFKA_RESP_ERR_NO_ERROR)
  | .threw call e => call.msg ∈ s.producer.handle.rejected ∨
      ((report call.msg).err ≠ RD_KAFKA_RESP_ERR_NO_ERROR ∧
        e = .ofError (.ofRespErr (report call.msg).err))

structure Sound (s : System n) (pending : List MsgId) : Prop where
  producer : s.producer.Sound
  ran : ∃ done, s.producer.handle.invoked = done ++ pending
  threads : ∀ t, ThreadSound report s pending t (s.threads t)
  /-- The locals a callback will write to are there. -/
  awaited : ∀ m ∈ s.outstanding pending, ∀ t, (s.opaques m)._deliveryCb = some t →
    ∃ call, s.threads t = .waiting call ∧ call.msg = m

end Invariant

variable {report : MsgId → Report}

theorem sound_start (mem : Address → RkMessage) : Sound report (start mem : System n) [] where
  producer := ⟨Handle.sound_new, fun _ _ hc => by simp [start] at hc,
    fun hc => by simp [start] at hc⟩
  ran := ⟨[], rfl⟩
  threads := fun _ => trivial
  awaited := fun _ hm => by simp [start, System.outstanding] at hm

/-- A thread whose messages are left alone. -/
theorem ThreadSound.frame {s s' : System n} {pending pending' : List MsgId} {t : Fin n}
    {thread : Thread} (h : ThreadSound report s pending t thread)
    (hopaques : ∀ m ∈ s.producer.handle.accepted, s'.opaques m = s.opaques m)
    (haccepted : ∀ m ∈ s.producer.handle.accepted, m ∈ s'.producer.handle.accepted)
    (hrejected : ∀ m ∈ s.producer.handle.rejected, m ∈ s'.producer.handle.rejected)
    (hout : ∀ m ∈ s.producer.handle.accepted, (s.opaques m)._deliveryCb = some t →
      (m ∈ s'.outstanding pending' ↔ m ∈ s.outstanding pending)) :
    ThreadSound report s' pending' t thread := by
  cases thread with
  | idle => trivial
  | waiting call =>
    obtain ⟨hown, hin, hresult⟩ := h
    have hiff := hout call.msg hin (by rw [hown])
    refine ⟨(hopaques call.msg hin).trans hown, haccepted call.msg hin, ?_⟩
    cases hr : call.deliveryResult with
    | none =>
      rw [hr] at hresult
      exact hiff.mpr hresult
    | some error =>
      rw [hr] at hresult
      exact ⟨fun hmem => hresult.1 (hiff.mp hmem), hresult.2⟩
  | returned call => exact h
  | threw call e => exact h.imp_left (hrejected call.msg)

/-- Only one callback of a message is outstanding, and none that has run. -/
theorem Sound.nodup {s : System n} {pending : List MsgId} (hs : Sound report s pending) :
    (s.outstanding pending).Nodup := by
  obtain ⟨done, hdone⟩ := hs.ran
  have hl := hs.producer.handle.ledger
  have hperm := hl.perm
  rw [hdone, List.append_assoc] at hperm
  exact (hperm.nodup_iff.mp hl.nodup.of_append_left).of_append_right

theorem Sound.accepted {s : System n} {pending : List MsgId} (hs : Sound report s pending)
    {m : MsgId} (hm : m ∈ s.outstanding pending) : m ∈ s.producer.handle.accepted := by
  obtain ⟨done, hdone⟩ := hs.ran
  have hperm := hs.producer.handle.ledger.perm
  rw [hdone, List.append_assoc] at hperm
  exact hperm.mem_iff.mpr (List.mem_append_right done hm)

/-! ## §4. One callback. -/

/-- What the callback leaves in the locals. -/
theorem filled_deliveryCb (report : MsgId → Report) (call : Call) (mem : Address → RkMessage) :
    ∃ call', call.deliveryCb (Function.update mem (report call.msg).rkmsg (report call.msg).message)
        (.ofMessage (report call.msg).rkmsg call.recordId) (.ofRespErr (report call.msg).err)
        = some call' ∧
      call'.msg = call.msg ∧ call'.recordId = call.recordId ∧
      call'.deliveryResult = some (.ofRespErr (report call.msg).err) ∧
      Filled report call' (.ofRespErr (report call.msg).err) := by
  unfold Call.deliveryCb
  rw [RecordMetadata.assign_eq]
  -- the metadata looks at the message reported
  have hinfo : (RecordMetadata.ofMessage (report call.msg).rkmsg call.recordId).info
      (Function.update mem (report call.msg).rkmsg (report call.msg).message)
      = some (RecordMetadata.cacheOf (report call.msg).message) := by
    simp [RecordMetadata.info, RecordMetadata.select, RecordMetadata.ofMessage]
  rw [hinfo]
  exact ⟨_, rfl, rfl, rfl, rfl, rfl, rfl⟩

/-- **One callback**: it finds its locals, and fills them. -/
theorem Sound.deliveryCallback {s : System n} {m : MsgId} {pending : List MsgId}
    (hs : Sound report s (m :: pending)) :
    ∃ s', s.deliveryCallback report m = some s' ∧ Sound report s' pending := by
  have hcons : s.outstanding (m :: pending) = m :: s.outstanding pending := rfl
  have hnew : m ∉ s.outstanding pending := (List.nodup_cons.mp (hcons ▸ hs.nodup)).1
  have hran : ∃ done, s.producer.handle.invoked = done ++ pending := by
    obtain ⟨done, hdone⟩ := hs.ran
    exact ⟨done ++ [m], by simpa using hdone⟩
  -- the messages of other threads, or of none
  have hframe (s' : System n) (hq : s'.producer = s.producer) (ho : s'.opaques = s.opaques)
      (t : Fin n) (ht : (s.opaques m)._deliveryCb ≠ some t) :
      ThreadSound report s' pending t (s.threads t) := by
    refine (hs.threads t).frame (fun _ _ => by rw [ho]) (fun _ hm => hq ▸ hm)
      (fun _ hm => hq ▸ hm) fun x _ hx => ?_
    have hne : x ≠ m := fun heq => ht (heq ▸ hx)
    rw [hcons, List.mem_cons, or_iff_right hne, System.outstanding, hq]
    rfl
  unfold System.deliveryCallback
  cases ho : (s.opaques m)._deliveryCb with
  | none =>
    refine ⟨_, rfl, hs.producer, hran, fun t => hframe _ rfl rfl t (by simp [ho]), ?_⟩
    exact fun x hx t hcb => hs.awaited x (List.mem_cons_of_mem m hx) t hcb
  | some t =>
    obtain ⟨call, hcall, hmsg⟩ := hs.awaited m List.mem_cons_self t ho
    have hsound := hs.threads t
    rw [hcall] at hsound
    obtain ⟨hown, hin, -⟩ := hsound
    subst hmsg
    obtain ⟨call', heq, hmsg', hid', hresult', hfilled⟩ :=
      filled_deliveryCb report call s.mem
    have hcb : (s.opaques call.msg)._recordId = call.recordId := by rw [hown]
    refine ⟨{ s with
      mem := Function.update s.mem (report call.msg).rkmsg (report call.msg).message
      threads := Function.update s.threads t (.waiting call') }, ?_, hs.producer, hran,
      fun t' => ?_, fun x hx t' hx' => ?_⟩
    · simp only [hcall, if_pos, hcb, heq, Option.map_some]
    · by_cases ht : t' = t
      · subst ht
        dsimp only
        rw [Function.update_self]
        refine ⟨?_, hmsg'.symm ▸ hin, ?_⟩
        · rw [hmsg', hid']
          exact hown
        · rw [hresult']
          exact ⟨hmsg'.symm ▸ hnew, hfilled⟩
      · dsimp only
        rw [Function.update_of_ne ht]
        exact hframe _ rfl rfl t' (by simpa [ho] using Ne.symm ht)
    · obtain ⟨other, hother, hmsg⟩ := hs.awaited x (List.mem_cons_of_mem _ hx) t' hx'
      have ht : t' ≠ t := by
        intro heq
        rw [heq, hcall] at hother
        obtain rfl : call = other := by simpa using hother
        exact hnew (hmsg ▸ hx)
      exact ⟨other, by simpa [Function.update_of_ne ht] using hother, hmsg⟩

/-- All callbacks of the reports served. -/
theorem Sound.deliveryCallbacks {s : System n} {pending : List MsgId}
    (hs : Sound report s pending) :
    ∃ s', s.deliveryCallbacks report pending = some s' ∧ Sound report s' [] := by
  induction pending generalizing s with
  | nil => exact ⟨s, rfl, hs⟩
  | cons m ms ih =>
    obtain ⟨s', hm, hs'⟩ := hs.deliveryCallback
    obtain ⟨s'', hms, hs''⟩ := ih hs'
    refine ⟨s'', ?_, hs''⟩
    rw [System.deliveryCallbacks, hm, Option.bind_some]
    exact hms

/-! ## §5. One step. -/

/-- What a thread is set to, and the others. -/
theorem System.threads_setThread (s : System n) (caller : Option (Fin n)) (thread : Thread)
    (t : Fin n) : (s.setThread caller thread).threads t =
      if caller = some t then thread else s.threads t := by
  cases caller with
  | none => rfl
  | some t' =>
    unfold System.setThread
    by_cases ht : t = t'
    · simp [ht]
    · simp [Function.update_of_ne ht, Ne.symm ht]

@[simp] theorem System.producer_setThread (s : System n) (caller : Option (Fin n))
    (thread : Thread) : (s.setThread caller thread).producer = s.producer := by
  cases caller <;> rfl

@[simp] theorem System.opaques_setThread (s : System n) (caller : Option (Fin n))
    (thread : Thread) : (s.setThread caller thread).opaques = s.opaques := by
  cases caller <;> rfl

/-- Who calls `send` is in no `syncSend`, and has no callback outstanding. -/
theorem Sound.not_awaited {s : System n} {pending : List MsgId} (hs : Sound report s pending)
    {caller : Option (Fin n)} (hbusy : s.isBusy caller = false) {m : MsgId}
    (hm : m ∈ s.outstanding pending) {t : Fin n} (hcb : (s.opaques m)._deliveryCb = some t) :
    caller ≠ some t := by
  intro heq
  obtain ⟨call, hcall, -⟩ := hs.awaited m hm t hcb
  simp [heq, System.isBusy, hcall, Thread.isWaiting] at hbusy

/-- `send` throws: the opaque is freed, and nothing new is outstanding. -/
theorem Sound.refused {s : System n} (hs : Sound report s []) {caller : Option (Fin n)}
    (hbusy : s.isBusy caller = false)
    (hq : (s.producer.withHandle s.producer.handle.reject).Sound) {call : Call}
    (hmsg : call.msg = s.producer.handle.nextId) (e : KafkaException) :
    Sound report (({ s with producer := s.producer.withHandle s.producer.handle.reject } :
      System n).setThread caller (.threw call e)) [] := by
  have hout {s' : System n} (hp : s'.producer = s.producer.withHandle s.producer.handle.reject)
      (m : MsgId) : m ∈ s'.outstanding [] ↔ m ∈ s.outstanding [] := by
    simp [System.outstanding, hp, KafkaProducer.withHandle, Handle.reject]
  refine ⟨by simpa using hq, ⟨_, (List.append_nil _).symm⟩, fun t => ?_, fun m hm t hcb => ?_⟩
  · rw [System.threads_setThread]
    split
    next => exact .inl (by simp [hmsg, KafkaProducer.withHandle, Handle.reject])
    next =>
      refine (hs.threads t).frame (fun m _ => by simp) (fun m hm => ?_) (fun m hm => ?_)
        fun m _ _ => hout (by simp) m
      · simpa [KafkaProducer.withHandle, Handle.reject] using hm
      · simp [KafkaProducer.withHandle, Handle.reject, hm]
  · have hm' : m ∈ s.outstanding [] := (hout (by simp) m).mp hm
    have hcb' : (s.opaques m)._deliveryCb = some t := by simpa using hcb
    obtain ⟨call', hcall, hmsg'⟩ := hs.awaited m hm' t hcb'
    exact ⟨call', by rw [System.threads_setThread, if_neg (hs.not_awaited hbusy hm' hcb'), hcall],
      hmsg'⟩

/-- `send` returns: the message is in flight, and its opaque refers to the caller. -/
theorem Sound.taken {s : System n} (hs : Sound report s []) {caller : Option (Fin n)}
    (hbusy : s.isBusy caller = false)
    (hq : (s.producer.withHandle s.producer.handle.accept).Sound) {call : Call}
    (hmsg : call.msg = s.producer.handle.nextId) (hnone : call.deliveryResult = none) :
    Sound report (({ s with
      producer := s.producer.withHandle s.producer.handle.accept
      opaques := Function.update s.opaques call.msg ⟨call.recordId, caller⟩ } :
        System n).setThread caller (.waiting call)) [] := by
  -- nobody refers to the new message yet
  have hfresh {m : MsgId} (hm : m ∈ s.producer.handle.accepted) : m ≠ call.msg := by
    rw [hmsg]
    exact (hs.producer.handle.fresh m (List.mem_append_left _ hm)).ne
  have hout {s' : System n} (hp : s'.producer = s.producer.withHandle s.producer.handle.accept)
      (m : MsgId) : m ∈ s'.outstanding [] ↔ m ∈ s.outstanding [] ∨ m = call.msg := by
    simp [System.outstanding, hp, hmsg, KafkaProducer.withHandle, Handle.accept, or_assoc]
  refine ⟨by simpa using hq, ⟨_, (List.append_nil _).symm⟩, fun t => ?_, fun m hm t hcb => ?_⟩
  · rw [System.threads_setThread]
    split
    next ht =>
      refine ⟨by simp [ht], by simp [hmsg, KafkaProducer.withHandle, Handle.accept], ?_⟩
      rw [hnone]
      exact (hout (by simp) call.msg).mpr (.inr rfl)
    next =>
      refine (hs.threads t).frame (fun m hm => ?_) (fun m hm => ?_) (fun m hm => ?_)
        fun m hm _ => ?_
      · simp [Function.update_of_ne (hfresh hm)]
      · simp [KafkaProducer.withHandle, Handle.accept, hm]
      · simpa [KafkaProducer.withHandle, Handle.accept] using hm
      · rw [hout (by simp) m, or_iff_left (hfresh hm)]
  · rw [System.opaques_setThread] at hcb
    rw [System.threads_setThread]
    cases (hout (by simp) m).mp hm with
    | inl hold =>
      have hcb' : (s.opaques m)._deliveryCb = some t := by
        simpa [Function.update_of_ne (hfresh (hs.accepted hold))] using hcb
      obtain ⟨call', hcall, hmsg'⟩ := hs.awaited m hold t hcb'
      exact ⟨call', by rw [if_neg (hs.not_awaited hbusy hold hcb'), hcall], hmsg'⟩
    | inr hnew =>
      have ht : caller = some t := by simpa [hnew] using hcb
      exact ⟨call, if_pos ht, hnew.symm⟩

theorem sound_send {s s' : System n} (hs : Sound report s []) {caller : Option (Fin n)}
    {recordId : Option UInt64} {sendResult : Option RdKafkaError}
    (h : s.step report (.send caller recordId sendResult) = some s') : Sound report s' [] := by
  unfold System.step at h
  obtain ⟨hbusy, h⟩ := Option.ite_none_left_eq_some.mp h
  have hbusy : s.isBusy caller = false := by simpa using hbusy
  obtain ⟨q, hq, rfl⟩ := Option.map_eq_some_iff.mp h
  have hqs : q.Sound := KafkaProducer.sound_step _ _ _ hs.producer hq
  obtain ⟨-, rfl⟩ := KafkaProducer.step_send hq
  unfold System.sent throwIfWithError
  cases herr : (Error.ofRkError sendResult).toBool with
  | true =>
    rw [herr] at hqs
    exact hs.refused hbusy hqs rfl _
  | false =>
    rw [herr] at hqs
    exact hs.taken hbusy hqs rfl rfl

theorem Call.finish_ofRespErr (call : Call) (respErr : RespErr) :
    call.finish (.ofRespErr respErr) = if respErr = RD_KAFKA_RESP_ERR_NO_ERROR then .returned call
      else .threw call (.ofError (.ofRespErr respErr)) := by
  unfold Call.finish
  rw [throwIfWithError_ofRespErr]
  by_cases h : respErr = RD_KAFKA_RESP_ERR_NO_ERROR
  · rw [if_pos h, if_pos h]
  · rw [if_neg h, if_neg h]

/-- A wait that ends has its result. -/
theorem System.step_wake {s s' : System n} {t : Fin n} (h : s.step report (.wake t) = some s') :
    ∃ call error, s.threads t = .waiting call ∧ call.deliveryResult = some error ∧
      s' = { s with threads := Function.update s.threads t (call.finish error) } := by
  simp only [System.step] at h
  split at h
  next call hthread =>
    obtain ⟨error, herror, rfl⟩ := Option.map_eq_some_iff.mp h
    exact ⟨call, error, hthread, herror, rfl⟩
  next => simp at h

theorem sound_wake {s s' : System n} (hs : Sound report s []) {t : Fin n}
    (h : s.step report (.wake t) = some s') : Sound report s' [] := by
  obtain ⟨call, error, hthread, herror, rfl⟩ := System.step_wake h
  have hsound := hs.threads t
  rw [hthread] at hsound
  obtain ⟨-, -, hresult⟩ := hsound
  rw [herror] at hresult
  obtain ⟨hnot, hfilled⟩ := hresult
  refine ⟨hs.producer, hs.ran, fun t' => ?_, fun m hm t' hcb => ?_⟩
  · by_cases ht : t' = t
    · dsimp only
      rw [ht, Function.update_self, hfilled.error, Call.finish_ofRespErr]
      split
      next hcode => exact ⟨by rw [hcode], hfilled.metadata⟩
      next hcode => exact .inr ⟨hcode, rfl⟩
    · dsimp only
      rw [Function.update_of_ne ht]
      exact hs.threads t'
  · obtain ⟨other, hother, hmsg⟩ := hs.awaited m hm t' hcb
    have ht : t' ≠ t := by
      intro heq
      rw [heq, hthread] at hother
      obtain rfl : call = other := by simpa using hother
      exact hnot (hmsg ▸ hm)
    exact ⟨other, by simpa [Function.update_of_ne ht] using hother, hmsg⟩

theorem System.step_other (s : System n) {a : ProducerAction}
    (ha : ∀ accepted, a ≠ .send accepted) :
    s.step report (.other a) = (s.producer.step a).bind fun producer =>
      ({ s with producer } : System n).deliveryCallbacks report
        (producer.handle.invoked.drop s.producer.handle.invoked.length) := by
  cases a with
  | send accepted => exact absurd rfl (ha accepted)
  | _ => rfl

/-- The producer has taken a step, which is no `send`, and the callbacks it ran are over. -/
theorem System.step_other_cases {s s' : System n} {a : ProducerAction}
    (h : s.step report (.other a) = some s') :
    (∀ accepted, a ≠ .send accepted) ∧ ∃ q, s.producer.step a = some q ∧
      ({ s with producer := q } : System n).deliveryCallbacks report
        (q.handle.invoked.drop s.producer.handle.invoked.length) = some s' := by
  have hsend (accepted : Bool) : a ≠ .send accepted := by
    intro heq
    simp [heq, System.step] at h
  rw [s.step_other hsend] at h
  exact ⟨hsend, Option.bind_eq_some_iff.mp h⟩

/-- **Whatever else goes on**, the callbacks it runs find their locals. -/
theorem Sound.other {s : System n} (hs : Sound report s []) {a : ProducerAction}
    (ha : ∀ accepted, a ≠ .send accepted) {q : KafkaProducer} (hq : s.producer.step a = some q) :
    ∃ s', s.step report (.other a) = some s' ∧ Sound report s' [] := by
  obtain ⟨ran, hran⟩ := moves_step ha hq
  have hmem (m : MsgId) : m ∈ ({ s with producer := q } : System n).outstanding ran ↔
      m ∈ s.outstanding [] := (hran.held.mem_iff).symm
  -- the reports are served before the first callback runs
  have hserved : Sound report ({ s with producer := q } : System n) ran := by
    refine ⟨KafkaProducer.sound_step _ _ _ hs.producer hq, ⟨_, hran.invoked⟩, fun t => ?_,
      fun m hm t hcb => hs.awaited m ((hmem m).mp hm) t hcb⟩
    exact (hs.threads t).frame (fun _ _ => rfl) (fun _ hm => hran.accepted ▸ hm)
      (fun _ hm => hran.rejected ▸ hm) fun m _ _ => hmem m
  obtain ⟨s', hs', hsound⟩ := hserved.deliveryCallbacks
  refine ⟨s', ?_, hsound⟩
  rw [s.step_other ha, hq, Option.bind_some, hran.invoked, List.drop_left]
  exact hs'

theorem sound_step (s : System n) (a : Action n) (s' : System n) (hs : Sound report s [])
    (h : s.step report a = some s') : Sound report s' [] := by
  cases a with
  | send caller recordId sendResult => exact sound_send hs h
  | wake t => exact sound_wake hs h
  | other a =>
    obtain ⟨hsend, q, hq, -⟩ := System.step_other_cases h
    obtain ⟨s'', hs'', hsound⟩ := hs.other hsend hq
    obtain rfl : s'' = s' := Option.some.inj (hs''.symm.trans h)
    exact hsound
  | reuse rkmsg message =>
    obtain rfl := Option.some.inj h
    exact ⟨hs.producer, hs.ran, hs.threads, hs.awaited⟩

theorem sound_run {mem : Address → RkMessage} {actions : List (Action n)} {s : System n}
    (hrun : run (System.step report) (start mem) actions = some s) : Sound report s [] :=
  run_invariant sound_step (sound_start mem) hrun

/-! ## §6. Every run. -/

/-- **A `syncSend` answers for its own record**: in every run no callback comes when the locals it
refers to are gone; what is returned shows the message reported of the record, with its id,
whatever becomes of the message; and what is thrown is the error reported of it, unless it was
refused at once. -/
theorem syncSend_own (report : MsgId → Report) (mem : Address → RkMessage)
    (actions : List (Action n)) (s : System n)
    (hrun : run (System.step report) (start mem) actions = some s) :
    (∀ a, (∀ accepted, a ≠ .send accepted) → (s.producer.step a).isSome →
      (s.step report (.other a)).isSome) ∧
    (∀ t call, s.threads t = .returned call →
      (report call.msg).err = RD_KAFKA_RESP_ERR_NO_ERROR ∧
      ∀ timeString mem', call.recordMetadata.observe timeString mem' =
        (RecordMetadata.ofMessage (report call.msg).rkmsg call.recordId).observe timeString
          (Function.update mem' (report call.msg).rkmsg (report call.msg).message)) ∧
    (∀ t call e, s.threads t = .threw call e → call.msg ∈ s.producer.handle.rejected ∨
      ((report call.msg).err ≠ RD_KAFKA_RESP_ERR_NO_ERROR ∧
        e.error = .ofRespErr (report call.msg).err)) := by
  have hs : Sound report s [] := sound_run hrun
  refine ⟨fun a ha hsome => ?_, fun t call hcall => ?_, fun t call e hcall => ?_⟩
  · obtain ⟨q, hq⟩ := Option.isSome_iff_exists.mp hsome
    obtain ⟨s', hs', -⟩ := hs.other ha hq
    rw [hs']
    rfl
  · have hfilled := hs.threads t
    rw [hcall] at hfilled
    have hcode : RD_KAFKA_RESP_ERR_NO_ERROR = (report call.msg).err :=
      congrArg Error._respErr hfilled.error
    -- the metadata were cached in the callback, so the memory may be reused
    refine ⟨hcode.symm, fun timeString mem' => RecordMetadata.observe_congr ?_ ?_⟩
    · rw [hfilled.metadata]
      simp [RecordMetadata.info, RecordMetadata.select, RecordMetadata.ofMessage]
    · rw [hfilled.metadata]
      rfl
  · have hthrew := hs.threads t
    rw [hcall] at hthrew
    refine hthrew.imp_right fun h => ⟨h.1, ?_⟩
    rw [h.2]
    rfl

/-- Of two messages, both reported at one address, the second times out. -/
def reportTwo (m : MsgId) : Report where
  rkmsg := 0
  message := {
    rkt := some (c_str "t"), partition := 0, len := 0, key_len := 0, offset := 5
    timestamp := 0, tstype := .RD_KAFKA_TIMESTAMP_NOT_AVAILABLE
    status := .RD_KAFKA_MSG_STATUS_PERSISTED }
  err := if m = 0 then RD_KAFKA_RESP_ERR_NO_ERROR else -192

/-- Two threads send, and the one that called last is answered first. -/
def sendTwo : List (Action 2) :=
  [.send (some 0) (some 7) none, .send (some 1) (some 8) none, .other (.resolve 1),
    .other (.poll .serveReport), .other (.resolve 0), .other (.poll .serveReport), .wake 1, .wake 0]

/-- What is in memory before. -/
def memTwo : Address → RkMessage := fun _ => (reportTwo 0).message

theorem syncSend_own_two :
    ∃ s call call' e, run (System.step reportTwo) (start memTwo) sendTwo = some s ∧
      s.threads 0 = .returned call ∧ s.threads 1 = .threw call' e ∧
      (reportTwo call.msg).err = RD_KAFKA_RESP_ERR_NO_ERROR ∧
      (call'.msg ∈ s.producer.handle.rejected ∨
        ((reportTwo call'.msg).err ≠ RD_KAFKA_RESP_ERR_NO_ERROR ∧
          e.error = .ofRespErr (reportTwo call'.msg).err)) := by
  have hown := syncSend_own reportTwo memTwo sendTwo _ rfl
  exact ⟨_, _, _, _, rfl, rfl, rfl, (hown.2.1 0 _ rfl).1, hown.2.2 1 _ _ rfl⟩

/-! ## §7. Do they return? -/

/-- Events are polled, librdkafka answers, and waits end. -/
def Action.OfReturning : Action n → Prop
  | .wake _ | .other (.poll _) | .other (.resolve _) => True
  | _ => False

/-- No report is served. -/
def Action.ServesNothing : Action n → Prop
  | .other (.poll _) | .other (.closeStep _) => False
  | _ => True

namespace System

def waiting (s : System n) : Finset (Fin n) :=
  Finset.univ.filter fun t => (s.threads t).isWaiting = true

/-- What is still to come of `OfReturning`. -/
def remaining (s : System n) : ℕ :=
  2 * s.producer.handle.inflight.length + s.producer.handle.reports.length
    + s.producer.handle.errors + s.waiting.card

theorem mem_waiting {s : System n} {t : Fin n} :
    t ∈ s.waiting ↔ (s.threads t).isWaiting = true := by
  simp [waiting]

/-- A callback ends no wait by itself. -/
theorem deliveryCallback_keeps {s s' : System n} {m : MsgId}
    (h : s.deliveryCallback report m = some s') :
    s'.waiting = s.waiting ∧ s'.producer = s.producer := by
  unfold deliveryCallback at h
  dsimp only at h
  split at h
  next =>
    obtain rfl := Option.some.inj h
    exact ⟨rfl, rfl⟩
  next t _ =>
    split at h
    next call hcall =>
      obtain ⟨-, h⟩ := Option.ite_none_right_eq_some.mp h
      obtain ⟨call', -, rfl⟩ := Option.map_eq_some_iff.mp h
      refine ⟨Finset.ext fun t' => ?_, rfl⟩
      rw [mem_waiting, mem_waiting]
      dsimp only
      by_cases ht : t' = t
      · rw [ht, Function.update_self, hcall]
        rfl
      · rw [Function.update_of_ne ht]
    next => simp at h

theorem deliveryCallbacks_keeps {s s' : System n} {ms : List MsgId}
    (h : s.deliveryCallbacks report ms = some s') :
    s'.waiting = s.waiting ∧ s'.producer = s.producer := by
  induction ms generalizing s with
  | nil =>
    obtain rfl := Option.some.inj h
    exact ⟨rfl, rfl⟩
  | cons m ms ih =>
    rw [deliveryCallbacks] at h
    obtain ⟨s₁, hm, hms⟩ := Option.bind_eq_some_iff.mp h
    obtain ⟨hw, hp⟩ := deliveryCallback_keeps hm
    obtain ⟨hw', hp'⟩ := ih hms
    exact ⟨hw'.trans hw, hp'.trans hp⟩

end System

/-- Serving an event takes it out of the queue it is in. -/
theorem length_serve {p p' : Handle} {choice : Choice} (h : p.serve choice = some p') :
    p'.inflight = p.inflight ∧ p'.reports.length + p'.errors < p.reports.length + p.errors := by
  refine ⟨Handle.serve_inflight h, ?_⟩
  rcases Handle.serve_cases h with ⟨m, reports, -, hrep, rfl⟩ | ⟨errors, -, herr, rfl⟩
  · show reports.length + p.errors < p.reports.length + p.errors
    rw [hrep, List.length_cons]
    omega
  · show p.reports.length + errors < p.reports.length + p.errors
    omega

/-- One wait is over, the others go on. -/
theorem System.waiting_wake {s : System n} {t : Fin n} (call : Call) (error : Error) :
    ({ s with threads := Function.update s.threads t (call.finish error) } : System n).waiting =
      s.waiting.erase t := by
  ext t'
  rw [System.mem_waiting, Finset.mem_erase, System.mem_waiting]
  dsimp only
  by_cases ht : t' = t
  · rw [ht, Function.update_self]
    refine iff_of_false ?_ fun h => h.1 rfl
    unfold Call.finish
    split <;> exact Bool.false_ne_true
  · rw [Function.update_of_ne ht]
    exact (and_iff_right ht).symm

theorem remaining_falls (s : System n) (a : Action n) (s' : System n) (ha : a.OfReturning)
    (h : s.step report a = some s') : s'.remaining < s.remaining := by
  unfold System.remaining
  cases a with
  | send caller recordId sendResult => exact ha.elim
  | reuse rkmsg message => exact ha.elim
  | wake t =>
    obtain ⟨call, error, hthread, -, rfl⟩ := System.step_wake h
    have hin : t ∈ s.waiting := System.mem_waiting.mpr (by rw [hthread]; rfl)
    have hpos : 0 < s.waiting.card := Finset.card_pos.mpr ⟨t, hin⟩
    rw [System.waiting_wake, Finset.card_erase_of_mem hin]
    dsimp only
    omega
  | other a =>
    obtain ⟨-, q, hq, hcallbacks⟩ := System.step_other_cases h
    obtain ⟨hwaiting, hproducer⟩ := System.deliveryCallbacks_keeps hcallbacks
    have hwaiting : s'.waiting.card = s.waiting.card := congrArg Finset.card hwaiting
    rw [hwaiting, hproducer]
    dsimp only
    cases a with
    | poll choice =>
      obtain ⟨-, p, hp, rfl⟩ := KafkaProducer.step_poll hq
      obtain ⟨hin, hlt⟩ := length_serve hp
      show 2 * p.inflight.length + p.reports.length + p.errors + _ < _
      rw [hin]
      omega
    | resolve m =>
      obtain ⟨p, hp, rfl⟩ := KafkaProducer.step_resolve hq
      obtain ⟨hin, hrep, herr⟩ := Handle.length_resolve hp
      -- a message in flight counts for its report too
      show 2 * p.inflight.length + p.reports.length + p.errors + _ < _
      omega
    | _ => exact ha.elim

/-- As long as a thread waits, something goes on. -/
theorem returning_moves (s : System n) (hs : Sound report s [])
    (hgoal : ¬ ∀ t, (s.threads t).isWaiting = false) :
    ∃ a s', Action.OfReturning a ∧ s.step report a = some s' := by
  obtain ⟨t, ht⟩ := not_forall.mp hgoal
  have hsound := hs.threads t
  cases hthread : s.threads t with
  | idle => simp [hthread, Thread.isWaiting] at ht
  | returned call => simp [hthread, Thread.isWaiting] at ht
  | threw call e => simp [hthread, Thread.isWaiting] at ht
  | waiting call =>
    rw [hthread] at hsound
    obtain ⟨-, -, hresult⟩ := hsound
    cases hr : call.deliveryResult with
    | some error => exact ⟨.wake t, _, trivial, by simp only [System.step, hthread, hr]; rfl⟩
    | none =>
      rw [hr] at hresult
      cases hin : s.producer.handle.inflight with
      | cons m ms =>
        -- librdkafka has an answer to give
        obtain ⟨q, hq⟩ := Option.isSome_iff_exists.mp (show
          (s.producer.step (.resolve m)).isSome by
            simp [KafkaProducer.step, Handle.resolve, hin])
        obtain ⟨s', hs', -⟩ := hs.other (by simp) hq
        exact ⟨.other (.resolve m), s', trivial, hs'⟩
      | nil =>
        -- the report of the call is in the queue, so the producer is not closed
        have hreports : call.msg ∈ s.producer.handle.reports := by
          simpa [System.outstanding, hin] using hresult
        have hopen : s.producer.phase ≠ .closed := by
          intro hclosed
          rw [(hs.producer.closed hclosed).2] at hreports
          simp at hreports
        obtain ⟨m, reports, hrep⟩ := List.exists_cons_of_ne_nil (List.ne_nil_of_mem hreports)
        obtain ⟨q, hq⟩ := Option.isSome_iff_exists.mp (show
          (s.producer.step (.poll .serveReport)).isSome by
            simp [KafkaProducer.step, hopen, Handle.serve, hrep])
        obtain ⟨s', hs', -⟩ := hs.other (by simp) hq
        exact ⟨.other (.poll .serveReport), s', trivial, hs'⟩

theorem returning_completes (report : MsgId → Report) :
    Completes (System.step report) Action.OfReturning (fun s : System n => Sound report s [])
      (fun s => ∀ t, (s.threads t).isWaiting = false) System.remaining where
  keeps := fun s a s' hs _ h => sound_step s a s' hs h
  falls := fun s a s' _ ha h => remaining_falls s a s' ha h
  moves := returning_moves

/-- Without a report served, a wait goes on. -/
theorem waits_unserved {s s' : System n} {t : Fin n} {call : Call}
    (hthread : s.threads t = .waiting call) (hnone : call.deliveryResult = none) {a : Action n}
    (ha : a.ServesNothing) (h : s.step report a = some s') : s'.threads t = .waiting call := by
  cases a with
  | send caller recordId sendResult =>
    unfold System.step at h
    obtain ⟨hbusy, h⟩ := Option.ite_none_left_eq_some.mp h
    obtain ⟨q, -, rfl⟩ := Option.map_eq_some_iff.mp h
    have hne : caller ≠ some t := by
      intro heq
      simp [System.isBusy, heq, hthread, Thread.isWaiting] at hbusy
    unfold System.sent
    dsimp only
    split <;> rw [System.threads_setThread, if_neg hne] <;> exact hthread
  | wake t' =>
    obtain ⟨call', error, hthread', herror, rfl⟩ := System.step_wake h
    have hne : t ≠ t' := by
      intro heq
      rw [← heq, hthread] at hthread'
      obtain rfl : call = call' := by simpa using hthread'
      simp [hnone] at herror
    dsimp only
    rw [Function.update_of_ne hne]
    exact hthread
  | reuse rkmsg message =>
    obtain rfl := Option.some.inj h
    exact hthread
  | other a =>
    obtain ⟨hsend, q, hq, hcallbacks⟩ := System.step_other_cases h
    -- no report is served, so no callback runs
    have hinvoked : q.handle.invoked = s.producer.handle.invoked := by
      cases a with
      | send accepted => exact absurd rfl (hsend accepted)
      | poll choice => exact ha.elim
      | closeStep choice => exact ha.elim
      | purge =>
        obtain ⟨-, rfl⟩ := KafkaProducer.step_purge hq
        rfl
      | close infinite =>
        obtain ⟨-, rfl⟩ := KafkaProducer.step_close hq
        rfl
      | resolve m =>
        obtain ⟨p, hp, rfl⟩ := KafkaProducer.step_resolve hq
        exact (moves_resolve hp).invoked.trans (List.append_nil _)
      | raiseFatal => exact (Option.some.inj hq) ▸ rfl
    rw [hinvoked, List.drop_length] at hcallbacks
    obtain rfl := Option.some.inj hcallbacks
    exact hthread

end ModernCppKafka.Producer.SyncSend
