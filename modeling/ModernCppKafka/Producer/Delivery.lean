/-
  ModernCppKafka.Producer.Delivery — include/kafka/KafkaProducer.h and the handle behind it.

  A message is what `send` hands to librdkafka with the opaque pointer that owns its callback;
  its `MsgId` stands for that pointer.  librdkafka holds it in flight, then as a delivery report
  in a queue, and `deliveryCallback` runs and frees the callback when the report is served.
  Assumed of librdkafka, as documented: one report for each accepted message; `rd_kafka_flush`
  returns no error only when nothing is outstanding, else that it timed out; `rd_kafka_purge`
  queues a report for every outstanding message; `rd_kafka_poll(0)` serves all queued reports.

  Main results:
    * `closeStep_spec`         — `close` leaves nothing outstanding, on every path;
    * `producer_exactly_once`  — every run of a `KafkaProducer` to the end of `close`.
-/
import ModernCppKafka.Lib.Custody
import ModernCppKafka.Lib.Run
import Mathlib.Tactic

namespace ModernCppKafka.Producer

open ModernCppKafka.Lib.Custody
open ModernCppKafka.Lib.Run

/-! ## §1. The handle. -/

/-- The opaque pointer of a message: `send` makes a new one each time. -/
abbrev MsgId := Nat

/-- A producer's librdkafka handle, the flag its error callback sets, and a record of what
became of each `send`. -/
@[ext] structure Handle where
  /-- Accepted and not resolved yet. -/
  inflight : List MsgId := []
  /-- Delivery reports not served yet. -/
  reports : List MsgId := []
  /-- Fatal error events not served yet. -/
  errors : Nat := 0
  /-- What `KafkaRecoverableProducer`'s error callback sets. -/
  fatalError : Bool := false
  accepted : List MsgId := []
  rejected : List MsgId := []
  /-- The callbacks run, in order. -/
  invoked : List MsgId := []
  nextId : MsgId := 0
  deriving DecidableEq, Repr

/-- How a step that librdkafka or the clock has a say in turns out. -/
inductive Choice where
  /-- It goes on. -/
  | go
  /-- A delivery report is served. -/
  | serveReport
  /-- A fatal error event is served. -/
  | serveError
  /-- `rd_kafka_produceva` returns an error. -/
  | reject
  | timeOut
  deriving DecidableEq, Repr

namespace Handle

/-- `send`, as `rd_kafka_produceva` accepts the message. -/
def accept (p : Handle) : Handle :=
  { p with
    inflight := p.inflight ++ [p.nextId], accepted := p.accepted ++ [p.nextId]
    nextId := p.nextId + 1 }

/-- `send`, as `rd_kafka_produceva` rejects the message; `send` throws. -/
def reject (p : Handle) : Handle :=
  { p with rejected := p.rejected ++ [p.nextId], nextId := p.nextId + 1 }

/-- librdkafka has the broker's answer, or gives up, and queues the report. -/
def resolve (p : Handle) (m : MsgId) : Option Handle :=
  if m ∈ p.inflight then
    some { p with inflight := p.inflight.erase m, reports := p.reports ++ [m] }
  else none

/-- librdkafka queues a fatal error event. -/
def raiseFatal (p : Handle) : Handle := { p with errors := p.errors + 1 }

/-- One event is served: `deliveryCallback` runs, or the error callback. -/
def serve (p : Handle) : Choice → Option Handle
  | .serveReport =>
    -- the callback is run, and its opaque freed
    match p.reports with
    | [] => none
    | m :: reports => some { p with reports := reports, invoked := p.invoked ++ [m] }
  | .serveError =>
    match p.errors with
    | 0 => none
    | errors + 1 => some { p with errors := errors, fatalError := true }
  | _ => none

/-- `rd_kafka_purge` of queued and in-flight messages. -/
def purge (p : Handle) : Handle :=
  { p with inflight := [], reports := p.reports ++ p.inflight }

/-- `rd_kafka_poll(0)`: all queued events are served. -/
def pollAll (p : Handle) : Handle :=
  { p with
    reports := [], invoked := p.invoked ++ p.reports
    errors := 0, fatalError := p.fatalError || decide (0 < p.errors) }

/-- Another handle takes the place of this one, which is destroyed with all it holds. -/
def recreate (p : Handle) : Handle := { p with inflight := [], reports := [], errors := 0 }

/-- Nothing is outstanding. -/
def Drained (p : Handle) : Prop := p.inflight = [] ∧ p.reports = []

instance (p : Handle) : Decidable p.Drained := inferInstanceAs (Decidable (_ ∧ _))

/-- What an event served was: the first report of the queue, or an error. -/
theorem serve_cases {p p' : Handle} {choice : Choice} (h : p.serve choice = some p') :
    (∃ m reports, choice = .serveReport ∧ p.reports = m :: reports ∧
      p' = { p with reports := reports, invoked := p.invoked ++ [m] }) ∨
    (∃ errors, choice = .serveError ∧ p.errors = errors + 1 ∧
      p' = { p with errors := errors, fatalError := true }) := by
  unfold serve at h
  split at h
  · split at h
    next => simp at h
    next m reports hrep => exact .inl ⟨m, reports, rfl, hrep, (Option.some.inj h).symm⟩
  · split at h
    next => simp at h
    next errors herr => exact .inr ⟨errors, rfl, herr, (Option.some.inj h).symm⟩
  · simp at h

theorem resolve_eq_some {p p' : Handle} {m : MsgId} :
    p.resolve m = some p' ↔ m ∈ p.inflight ∧
      { p with inflight := p.inflight.erase m, reports := p.reports ++ [m] } = p' := by
  simp [resolve]

/-- A message resolved is one in flight less, and one report more. -/
theorem length_resolve {p p' : Handle} {m : MsgId} (h : p.resolve m = some p') :
    p'.inflight.length + 1 = p.inflight.length ∧ p'.reports.length = p.reports.length + 1 ∧
      p'.errors = p.errors := by
  obtain ⟨hm, rfl⟩ := resolve_eq_some.mp h
  have hpos : 0 < p.inflight.length := List.length_pos_of_mem hm
  refine ⟨?_, by simp, rfl⟩
  show (p.inflight.erase m).length + 1 = p.inflight.length
  rw [List.length_erase_of_mem hm]
  omega

end Handle

/-- Where `KafkaProducer::close` is: in `flush(timeout)`, at `purge()` (when the flush timed
out), or at `rd_kafka_poll(0)`. -/
inductive CloseStage where
  | flushing
  | purging
  | polling
  deriving DecidableEq, Repr

/-- `rd_kafka_flush`: events are served until nothing is outstanding, or the time is up (never,
for an infinite timeout).  The answer is the error returned, or `none` while it goes on. -/
def flushStep (infinite : Bool) (p : Handle) : Choice → Option (Option Choice × Handle)
  | .go => if p.Drained then some (some .go, p) else none
  | .timeOut => if infinite then none else some (some .timeOut, p)
  | choice => (p.serve choice).map (none, ·)

/-- One step of `close`; it has returned when no stage is left.  Only a flush that timed out is
followed by `purge()`. -/
def closeStep (infinite : Bool) (stage : CloseStage) (choice : Choice) (p : Handle) :
    Option (Option CloseStage × Handle) :=
  match stage with
  | .flushing =>
    match flushStep infinite p choice with
    | none => none
    | some (none, p) => some (some .flushing, p)
    | some (some .timeOut, p) => some (some .purging, p)
    | some (some _, p) => some (some .polling, p)
  | .purging => if choice = .go then some (some .polling, p.purge) else none
  | .polling => if choice = .go then some (none, p.pollAll) else none

/-! ## §2. The custody of callbacks. -/

/-- Every accepted message is in flight, in the queue or called back; and identities are new. -/
structure Handle.Sound (p : Handle) : Prop where
  ledger : Ledger p.accepted p.rejected (p.reports ++ p.inflight) p.invoked
  fresh : ∀ m ∈ p.accepted ++ p.rejected, m < p.nextId

namespace Handle

theorem sound_new : Sound {} := ⟨Ledger.empty, by simp⟩

theorem Sound.next_new {p : Handle} (h : p.Sound) : p.nextId ∉ p.accepted ++ p.rejected :=
  fun hin => lt_irrefl _ (h.fresh _ hin)

theorem Sound.accept {p : Handle} (h : p.Sound) : p.accept.Sound where
  ledger := by
    have := h.ledger.take h.next_new
    rwa [List.append_assoc] at this
  fresh := by
    intro m hm
    have hlt := h.fresh m
    simp only [Handle.accept, List.mem_append, List.mem_singleton] at hm hlt ⊢
    grind

theorem Sound.reject {p : Handle} (h : p.Sound) : p.reject.Sound where
  ledger := h.ledger.refuse h.next_new
  fresh := by
    intro m hm
    have hlt := h.fresh m
    simp only [Handle.reject, List.mem_append, List.mem_singleton] at hm hlt ⊢
    grind

theorem Sound.resolve {p p' : Handle} (h : p.Sound) {m : MsgId}
    (hr : p.resolve m = some p') : p'.Sound := by
  obtain ⟨hm, rfl⟩ := resolve_eq_some.mp hr
  -- the message changes its place, so what is held is permuted
  refine ⟨h.ledger.shift ?_, h.fresh⟩
  show (p.reports ++ p.inflight).Perm (p.reports ++ [m] ++ p.inflight.erase m)
  rw [List.append_assoc]
  exact (List.perm_cons_erase hm).append_left p.reports

theorem Sound.raiseFatal {p : Handle} (h : p.Sound) : p.raiseFatal.Sound := ⟨h.ledger, h.fresh⟩

theorem Sound.serve {p p' : Handle} (h : p.Sound) {choice : Choice}
    (hs : p.serve choice = some p') : p'.Sound := by
  rcases serve_cases hs with ⟨m, reports, -, hrep, rfl⟩ | ⟨errors, -, -, rfl⟩
  · -- the callback of the first report held is run
    have hl : Ledger p.accepted p.rejected ([m] ++ (reports ++ p.inflight)) p.invoked := by
      simpa [hrep] using h.ledger
    exact ⟨Ledger.hand [m] hl, h.fresh⟩
  · exact ⟨h.ledger, h.fresh⟩

theorem Sound.purge {p : Handle} (h : p.Sound) : p.purge.Sound :=
  ⟨h.ledger.shift (by simp [Handle.purge]), h.fresh⟩

theorem Sound.pollAll {p : Handle} (h : p.Sound) : p.pollAll.Sound :=
  ⟨Ledger.hand p.reports h.ledger, h.fresh⟩

/-- A handle that is drained may be replaced. -/
theorem Sound.recreate {p : Handle} (h : p.Sound) (hd : p.Drained) : p.recreate.Sound := by
  have hl := h.ledger
  rw [hd.1, hd.2] at hl
  exact ⟨hl, h.fresh⟩

end Handle

/-- No callback runs twice, and none of a `send` that threw. -/
structure AtMostOnce (p : Handle) : Prop where
  once : p.invoked.Nodup
  rejected : ∀ m ∈ p.rejected, m ∉ p.invoked

/-- The callback of every `send` that returned normally has run exactly once. -/
def ExactlyOnce (p : Handle) : Prop := ∀ m ∈ p.accepted, p.invoked.count m = 1

theorem Handle.Sound.atMostOnce {p : Handle} (h : p.Sound) : AtMostOnce p :=
  ⟨h.ledger.handed_nodup, fun _ hm => h.ledger.not_mem_handed hm⟩

theorem Handle.Sound.exactlyOnce {p : Handle} (h : p.Sound) (hd : p.Drained) : ExactlyOnce p := by
  have hl := h.ledger
  rw [hd.1, hd.2] at hl
  exact fun m hm => hl.mem_handed hm

/-! ## §3. Closing. -/

/-- What holds of the handle when `close` is at a stage, and when it has returned. -/
def StageOk : Option CloseStage → Handle → Prop
  | some .polling, p => p.inflight = []
  | none, p => p.Drained
  | _, _ => True

theorem Handle.serve_inflight {p p' : Handle} {choice : Choice} (h : p.serve choice = some p') :
    p'.inflight = p.inflight := by
  rcases Handle.serve_cases h with ⟨m, reports, -, -, rfl⟩ | ⟨errors, -, -, rfl⟩ <;> rfl

/-- A flush that goes on has served an event; one that returns has served all there was, or had
the time. -/
theorem flushStep_cases {infinite : Bool} {p p' : Handle} {choice : Choice}
    {result : Option Choice} (h : flushStep infinite p choice = some (result, p')) :
    (result = some .go ∧ p' = p ∧ p.Drained) ∨
    (result = some .timeOut ∧ p' = p ∧ infinite = false) ∨
    (result = none ∧ p.serve choice = some p') := by
  cases choice with
  | go =>
    simp only [flushStep] at h
    split at h
    next hd =>
      obtain ⟨rfl, rfl⟩ : some .go = result ∧ p = p' := by simpa using h
      exact .inl ⟨rfl, rfl, hd⟩
    next => simp at h
  | timeOut =>
    simp only [flushStep] at h
    split at h
    next => simp at h
    next hinf =>
      obtain ⟨rfl, rfl⟩ : some .timeOut = result ∧ p = p' := by simpa using h
      exact .inr (.inl ⟨rfl, rfl, by simpa using hinf⟩)
  | _ =>
    simp only [flushStep, Option.map_eq_some_iff, Prod.mk.injEq] at h
    obtain ⟨q, hq, rfl, rfl⟩ := h
    exact .inr (.inr ⟨rfl, hq⟩)

/-- What one step of `close` can do: its stages follow each other, and only a flush that timed
out leads to the purge. -/
theorem closeStep_cases {infinite : Bool} {stage : CloseStage} {choice : Choice} {p p' : Handle}
    {stage' : Option CloseStage} (h : closeStep infinite stage choice p = some (stage', p')) :
    (stage = .flushing ∧ stage' = some .polling ∧ p' = p ∧ p.Drained) ∨
    (stage = .flushing ∧ stage' = some .purging ∧ p' = p ∧ infinite = false) ∨
    (stage = .flushing ∧ stage' = some .flushing ∧ p.serve choice = some p') ∨
    (stage = .purging ∧ stage' = some .polling ∧ p' = p.purge) ∨
    (stage = .polling ∧ stage' = none ∧ p' = p.pollAll) := by
  cases stage with
  | flushing =>
    unfold closeStep at h
    rcases hf : flushStep infinite p choice with _ | ⟨result, q⟩
    · simp [hf] at h
    · rcases flushStep_cases hf with ⟨rfl, rfl, hd⟩ | ⟨rfl, rfl, hinf⟩ | ⟨rfl, hserve⟩
      · obtain ⟨rfl, rfl⟩ : some .polling = stage' ∧ q = p' := by simpa [hf] using h
        exact .inl ⟨rfl, rfl, rfl, hd⟩
      · obtain ⟨rfl, rfl⟩ : some .purging = stage' ∧ q = p' := by simpa [hf] using h
        exact .inr (.inl ⟨rfl, rfl, rfl, hinf⟩)
      · obtain ⟨rfl, rfl⟩ : some .flushing = stage' ∧ q = p' := by simpa [hf] using h
        exact .inr (.inr (.inl ⟨rfl, rfl, hserve⟩))
  | purging =>
    obtain ⟨-, rfl, rfl⟩ : choice = .go ∧ some .polling = stage' ∧ p.purge = p' := by
      simpa [closeStep] using h
    exact .inr (.inr (.inr (.inl ⟨rfl, rfl, rfl⟩)))
  | polling =>
    obtain ⟨-, rfl, rfl⟩ : choice = .go ∧ none = stage' ∧ p.pollAll = p' := by
      simpa [closeStep] using h
    exact .inr (.inr (.inr (.inr ⟨rfl, rfl, rfl⟩)))

/-- **`close` leaves nothing outstanding**: its stages keep the custody, and when it returns the
handle is drained, also after a flush that timed out. -/
theorem closeStep_spec {infinite : Bool} {stage : CloseStage} {choice : Choice} {p p' : Handle}
    {stage' : Option CloseStage} (hp : p.Sound) (hs : StageOk (some stage) p)
    (h : closeStep infinite stage choice p = some (stage', p')) :
    p'.Sound ∧ StageOk stage' p' := by
  rcases closeStep_cases h with ⟨rfl, rfl, rfl, hd⟩ | ⟨rfl, rfl, rfl, -⟩ | ⟨rfl, rfl, hserve⟩ |
    ⟨rfl, rfl, rfl⟩ | ⟨rfl, rfl, rfl⟩
  · exact ⟨hp, hd.1⟩
  · exact ⟨hp, trivial⟩
  · exact ⟨hp.serve hserve, trivial⟩
  · exact ⟨hp.purge, rfl⟩
  · exact ⟨hp.pollAll, hs, rfl⟩

/-- Once nothing is in flight, librdkafka resolves nothing. -/
theorem StageOk.resolve {stage : Option CloseStage} {p p' : Handle} {m : MsgId}
    (hs : StageOk stage p) (h : p.resolve m = some p') : StageOk stage p' := by
  have hne : p.inflight ≠ [] := by
    intro hnil
    simp [Handle.resolve, hnil] at h
  match stage, hs with
  | some .flushing, _ => trivial
  | some .purging, _ => trivial
  | some .polling, hs => exact absurd hs hne
  | none, hs => exact absurd hs.1 hne

theorem StageOk.raiseFatal {stage : Option CloseStage} {p : Handle} (hs : StageOk stage p) :
    StageOk stage p.raiseFatal := by
  match stage, hs with
  | some .flushing, _ => trivial
  | some .purging, _ => trivial
  | some .polling, hs => exact hs
  | none, hs => exact hs

/-! ## §4. Runs of a `KafkaProducer`. -/

/-- In use, in `close(timeout)`, or closed. -/
inductive Phase where
  | opened
  | closing (infinite : Bool) (stage : CloseStage)
  | closed
  deriving DecidableEq, Repr

structure KafkaProducer where
  handle : Handle := {}
  phase : Phase := .opened
  deriving DecidableEq, Repr

/-- What the user's threads, the polling thread and librdkafka do.  A `flush` of the user's is
the events it serves. -/
inductive ProducerAction where
  | send (accepted : Bool)
  | poll (choice : Choice)
  | purge
  | close (infinite : Bool)
  | closeStep (choice : Choice)
  | resolve (m : MsgId)
  | raiseFatal
  deriving DecidableEq, Repr

/-- Change the handle. -/
def KafkaProducer.withHandle (q : KafkaProducer) (p : Handle) : KafkaProducer :=
  { q with handle := p }

def KafkaProducer.step (q : KafkaProducer) : ProducerAction → Option KafkaProducer
  | .send accepted =>
    if q.phase = .opened then
      some (q.withHandle (if accepted then q.handle.accept else q.handle.reject))
    else none
  | .poll choice => if q.phase = .closed then none else (q.handle.serve choice).map q.withHandle
  | .purge => if q.phase = .closed then none else some (q.withHandle q.handle.purge)
  | .close infinite =>
    if q.phase = .opened then some { q with phase := .closing infinite .flushing } else none
  | .closeStep choice =>
    match q.phase with
    | .closing infinite stage =>
      match closeStep infinite stage choice q.handle with
      | none => none
      | some (some stage, p) => some ⟨p, .closing infinite stage⟩
      | some (none, p) => some ⟨p, .closed⟩
    | _ => none
  | .resolve m => (q.handle.resolve m).map q.withHandle
  | .raiseFatal => some (q.withHandle q.handle.raiseFatal)

namespace KafkaProducer

variable {q q' : KafkaProducer}

/-- What each step needs, and what it leaves. -/
theorem step_send {accepted : Bool} (h : q.step (.send accepted) = some q') :
    q.phase = .opened ∧
      q' = q.withHandle (if accepted then q.handle.accept else q.handle.reject) := by
  simpa [step, eq_comm] using h

theorem step_poll {choice : Choice} (h : q.step (.poll choice) = some q') :
    q.phase ≠ .closed ∧ ∃ p, q.handle.serve choice = some p ∧ q' = q.withHandle p := by
  simpa [step, eq_comm] using h

theorem step_purge (h : q.step .purge = some q') :
    q.phase ≠ .closed ∧ q' = q.withHandle q.handle.purge := by
  simpa [step, eq_comm] using h

theorem step_close {infinite : Bool} (h : q.step (.close infinite) = some q') :
    q.phase = .opened ∧ q' = { q with phase := .closing infinite .flushing } := by
  simpa [step, eq_comm] using h

theorem step_resolve {m : MsgId} (h : q.step (.resolve m) = some q') :
    ∃ p, q.handle.resolve m = some p ∧ q' = q.withHandle p := by
  simpa [step, eq_comm] using h

/-- A step of `close` is one of its stages, and ends it when no stage is left. -/
theorem step_closeStep {choice : Choice}
    (h : q.step (.closeStep choice) = some q') :
    ∃ infinite stage stage' p, q.phase = .closing infinite stage ∧
      Producer.closeStep infinite stage choice q.handle = some (stage', p) ∧
      q' = ⟨p, stage'.elim .closed (.closing infinite)⟩ := by
  unfold step at h
  rcases hph : q.phase with _ | ⟨infinite, stage⟩ | _ <;> simp only [hph] at h
  · simp at h
  · rcases hcs : Producer.closeStep infinite stage choice q.handle with _ | ⟨_ | stage', p⟩ <;>
      simp only [hcs] at h
    · simp at h
    · exact ⟨infinite, stage, none, p, rfl, hcs, (Option.some.inj h).symm⟩
    · exact ⟨infinite, stage, some stage', p, rfl, hcs, (Option.some.inj h).symm⟩
  · simp at h

end KafkaProducer

/-- The custody, and what `close` has come to. -/
structure KafkaProducer.Sound (q : KafkaProducer) : Prop where
  handle : q.handle.Sound
  closing : ∀ infinite stage, q.phase = .closing infinite stage → StageOk (some stage) q.handle
  closed : q.phase = .closed → q.handle.Drained

theorem KafkaProducer.sound_step (q : KafkaProducer) (a : ProducerAction) (q' : KafkaProducer)
    (hq : q.Sound) (h : q.step a = some q') : q'.Sound := by
  cases a with
  | send accepted =>
    obtain ⟨hopen, rfl⟩ := step_send h
    refine ⟨?_, fun i st hc => by simp [withHandle, hopen] at hc,
      fun hc => by simp [withHandle, hopen] at hc⟩
    cases accepted with
    | true => exact hq.handle.accept
    | false => exact hq.handle.reject
  | poll choice =>
    obtain ⟨hopen, p, hp, rfl⟩ := step_poll h
    refine ⟨hq.handle.serve hp, fun i st hc => ?_, fun hc => absurd hc hopen⟩
    have hst := hq.closing i st hc
    cases st with
    -- an event served was not in flight
    | polling => exact (Handle.serve_inflight hp).trans hst
    | _ => trivial
  | purge =>
    obtain ⟨hopen, rfl⟩ := step_purge h
    refine ⟨hq.handle.purge, fun i st _ => ?_, fun hc => absurd hc hopen⟩
    cases st with
    | polling => rfl
    | _ => trivial
  | close infinite =>
    obtain ⟨-, rfl⟩ := step_close h
    refine ⟨hq.handle, fun i st hc => ?_, fun hc => by simp at hc⟩
    obtain ⟨-, rfl⟩ : infinite = i ∧ CloseStage.flushing = st := by simpa using hc
    trivial
  | closeStep choice =>
    obtain ⟨infinite, stage, stage', p, hph, hcs, rfl⟩ := step_closeStep h
    obtain ⟨hp, hst⟩ := closeStep_spec hq.handle (hq.closing _ _ hph) hcs
    cases stage' with
    -- `close` has returned
    | none => exact ⟨hp, fun _ _ hc => by simp at hc, fun _ => hst⟩
    -- it goes on, at the next stage
    | some stage' =>
      refine ⟨hp, fun i st hc => ?_, fun hc => by simp at hc⟩
      obtain ⟨-, rfl⟩ : infinite = i ∧ stage' = st := by simpa using hc
      exact hst
  | resolve m =>
    obtain ⟨p, hp, rfl⟩ := step_resolve h
    -- a closed producer is one whose `close` is past its last stage
    have hdr : StageOk none q.handle → StageOk none p := fun hs => hs.resolve hp
    exact ⟨hq.handle.resolve hp, fun i st hc => (hq.closing i st hc).resolve hp,
      fun hc => hdr (hq.closed hc)⟩
  | raiseFatal =>
    obtain rfl : q.withHandle q.handle.raiseFatal = q' := by simpa [step] using h
    exact ⟨hq.handle.raiseFatal, fun i st hc => (hq.closing i st hc).raiseFatal, hq.closed⟩

/-- Every run of a `KafkaProducer`. -/
theorem producer_exactly_once (actions : List ProducerAction) (q : KafkaProducer)
    (hrun : run KafkaProducer.step {} actions = some q) :
    AtMostOnce q.handle ∧ (q.phase = .closed → ExactlyOnce q.handle) := by
  have hnew : ({} : KafkaProducer).Sound :=
    ⟨Handle.sound_new, fun _ _ hc => by simp at hc, fun hc => by simp at hc⟩
  have hq : q.Sound := run_invariant KafkaProducer.sound_step hnew hrun
  exact ⟨hq.handle.atMostOnce, fun hc => hq.handle.exactlyOnce (hq.closed hc)⟩

end ModernCppKafka.Producer
