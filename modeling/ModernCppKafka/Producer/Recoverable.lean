/-
  ModernCppKafka.Producer.Recoverable — include/kafka/addons/KafkaRecoverableProducer.h.

  The application thread runs the public operations, each under `_producerMutex`; the poll thread
  polls events without the mutex and replaces the producer, under it, after a fatal error; and
  librdkafka resolves messages and raises fatal errors.  Every statement that another party can
  observe is a step of its own, so a run is one interleaving of the three.

  Main results:
    * `coherent_step` — who holds the mutex, and when the poll thread has ended;
    * `sound_step`    — no callback is lost or run twice, across replaced producers;
    * `recoverable_exactly_once`.
-/
import ModernCppKafka.Producer.Delivery

namespace ModernCppKafka.Producer

open ModernCppKafka.Lib.Run

/-! ## §1. The two threads. -/

/-- A call by the application; the flag says that the timeout is infinite. -/
inductive Op where
  | send
  | syncSend
  | flush (infinite : Bool)
  | purge
  | close (infinite : Bool)
  deriving DecidableEq, Repr

/-- Where the application thread is. -/
inductive AppPc where
  | idle
  /-- `_pollThread.reset()`: stop is requested, and the thread joined. -/
  | joining (infinite : Bool)
  /-- At `std::scoped_lock lock(_producerMutex)` of the operation. -/
  | locking (op : Op)
  | sending
  | syncSending
  /-- `delivered.wait(..)` for the callback of the message. -/
  | syncWaiting (m : MsgId)
  | flushing (infinite : Bool)
  | purging
  | closing (infinite : Bool) (stage : CloseStage)
  /-- At the end of the scope of the lock. -/
  | unlocking
  | unlockingClosed
  | closed
  deriving DecidableEq, Repr

/-- Where the poll thread is. -/
inductive PollPc where
  | loopHead
  /-- In `_producer->pollEvents(1ms)`. -/
  | polling
  | checkFatal
  | purging
  | checkStop
  | resetFatal
  /-- At `const std::scoped_lock lock(_producerMutex)`. -/
  | locking
  | closing (stage : CloseStage)
  /-- At `_producer = createProducer()`. -/
  | creating
  | unlocking
  | exited
  deriving DecidableEq, Repr

inductive Thread where
  | app
  | poll
  deriving DecidableEq, Repr

/-- The members, and where the threads are. -/
structure KafkaRecoverableProducer where
  handle : Handle := {}
  /-- Stop has been requested of the poll thread. -/
  stop : Bool := false
  /-- The holder of `_producerMutex`. -/
  mutex : Option Thread := none
  app : AppPc := .idle
  poll : PollPc := .loopHead
  deriving DecidableEq, Repr

/-- A step of one of the threads. -/
inductive ThreadAction where
  | begin (op : Op)
  | app (choice : Choice)
  | poll (choice : Choice)
  deriving DecidableEq, Repr

/-- A step of librdkafka. -/
inductive RkEvent where
  | resolve (m : MsgId)
  | raiseFatal
  deriving DecidableEq, Repr

inductive Action where
  | thread (a : ThreadAction)
  | rk (e : RkEvent)
  deriving DecidableEq, Repr

/-- The first statement under the lock. -/
def Op.enter : Op → AppPc
  | .send => .sending
  | .syncSend => .syncSending
  | .flush infinite => .flushing infinite
  | .purge => .purging
  | .close infinite => .closing infinite .flushing

namespace KafkaRecoverableProducer

/-- The application calls an operation. -/
def begin (s : KafkaRecoverableProducer) (op : Op) : Option KafkaRecoverableProducer :=
  match s.app, op with
  -- `_pollThread.reset()` comes before the lock
  | .idle, .close infinite => some { s with stop := true, app := .joining infinite }
  | .idle, op => some { s with app := .locking op }
  | _, _ => none

def appStep (s : KafkaRecoverableProducer) (choice : Choice) : Option KafkaRecoverableProducer :=
  match s.app, choice with
  | .joining infinite, .go =>
    if s.poll = .exited then some { s with app := .locking (.close infinite) } else none
  | .locking op, .go =>
    if s.mutex = none then some { s with mutex := some .app, app := op.enter } else none
  -- with manual polling a full queue is an error, so `send` does not block
  | .sending, .go => some { s with handle := s.handle.accept, app := .unlocking }
  | .sending, .reject => some { s with handle := s.handle.reject, app := .unlocking }
  | .syncSending, .go =>
    some { s with handle := s.handle.accept, app := .syncWaiting s.handle.nextId }
  | .syncSending, .reject => some { s with handle := s.handle.reject, app := .unlocking }
  -- the wait ends once the callback has set the result
  | .syncWaiting m, .go =>
    if m ∈ s.handle.invoked then some { s with app := .unlocking } else none
  | .flushing infinite, choice =>
    match flushStep infinite s.handle choice with
    | none => none
    | some (none, p) => some { s with handle := p }
    | some (some _, p) => some { s with handle := p, app := .unlocking }
  | .purging, .go => some { s with handle := s.handle.purge, app := .unlocking }
  | .closing infinite stage, choice =>
    match closeStep infinite stage choice s.handle with
    | none => none
    | some (some stage, p) => some { s with handle := p, app := .closing infinite stage }
    | some (none, p) => some { s with handle := p, app := .unlockingClosed }
  | .unlocking, .go => some { s with mutex := none, app := .idle }
  | .unlockingClosed, .go => some { s with mutex := none, app := .closed }
  | _, _ => none

def pollStep (s : KafkaRecoverableProducer) (choice : Choice) : Option KafkaRecoverableProducer :=
  match s.poll, choice with
  | .loopHead, .go => some { s with poll := if s.stop then .exited else .polling }
  | .polling, .go => some { s with poll := .checkFatal }
  -- events are served without the lock, as many as come
  | .polling, choice => (s.handle.serve choice).map fun p => { s with handle := p }
  | .checkFatal, .go =>
    some { s with poll := if s.handle.fatalError then .purging else .loopHead }
  | .purging, .go => some { s with handle := s.handle.purge, poll := .checkStop }
  -- a stop requested meanwhile leaves the rest to `close`
  | .checkStop, .go => some { s with poll := if s.stop then .exited else .resetFatal }
  | .resetFatal, .go =>
    some { s with handle := { s.handle with fatalError := false }, poll := .locking }
  | .locking, .go =>
    if s.mutex = none then some { s with mutex := some .poll, poll := .closing .flushing }
    else none
  -- `_producer->close()` has an infinite timeout
  | .closing stage, choice =>
    match closeStep true stage choice s.handle with
    | none => none
    | some (some stage, p) => some { s with handle := p, poll := .closing stage }
    | some (none, p) => some { s with handle := p, poll := .creating }
  | .creating, .go => some { s with handle := s.handle.recreate, poll := .unlocking }
  | .unlocking, .go => some { s with mutex := none, poll := .loopHead }
  | _, _ => none

def threadStep (s : KafkaRecoverableProducer) : ThreadAction → Option KafkaRecoverableProducer
  | .begin op => s.begin op
  | .app choice => s.appStep choice
  | .poll choice => s.pollStep choice

def rkStep (s : KafkaRecoverableProducer) : RkEvent → Option KafkaRecoverableProducer
  | .resolve m => (s.handle.resolve m).map fun p => { s with handle := p }
  | .raiseFatal => some { s with handle := s.handle.raiseFatal }

def step (s : KafkaRecoverableProducer) : Action → Option KafkaRecoverableProducer
  | .thread a => s.threadStep a
  | .rk e => s.rkStep e

end KafkaRecoverableProducer

/-! ## §2. What a step can be. -/

/-- The steps of the application thread inside an operation. -/
inductive AppMove (s : KafkaRecoverableProducer) : KafkaRecoverableProducer → Prop
  | join (infinite : Bool) : s.app = .joining infinite → s.poll = .exited →
      AppMove s { s with app := .locking (.close infinite) }
  | lock (op : Op) : s.app = .locking op → s.mutex = none →
      AppMove s { s with mutex := some .app, app := op.enter }
  | accept : s.app = .sending → AppMove s { s with handle := s.handle.accept, app := .unlocking }
  | syncAccept : s.app = .syncSending →
      AppMove s { s with handle := s.handle.accept, app := .syncWaiting s.handle.nextId }
  | reject : s.app = .sending ∨ s.app = .syncSending →
      AppMove s { s with handle := s.handle.reject, app := .unlocking }
  | delivered (m : MsgId) : s.app = .syncWaiting m → m ∈ s.handle.invoked →
      AppMove s { s with app := .unlocking }
  | flushOn (infinite : Bool) (choice : Choice) (p : Handle) : s.app = .flushing infinite →
      s.handle.serve choice = some p → AppMove s { s with handle := p }
  | flushed (infinite : Bool) : s.app = .flushing infinite → AppMove s { s with app := .unlocking }
  | purge : s.app = .purging → AppMove s { s with handle := s.handle.purge, app := .unlocking }
  | closeOn (infinite : Bool) (stage stage' : CloseStage) (choice : Choice) (p : Handle) :
      s.app = .closing infinite stage →
      closeStep infinite stage choice s.handle = some (some stage', p) →
      AppMove s { s with handle := p, app := .closing infinite stage' }
  | closeEnd (infinite : Bool) (stage : CloseStage) (choice : Choice) (p : Handle) :
      s.app = .closing infinite stage →
      closeStep infinite stage choice s.handle = some (none, p) →
      AppMove s { s with handle := p, app := .unlockingClosed }
  | unlock : s.app = .unlocking → AppMove s { s with mutex := none, app := .idle }
  | unlockClosed : s.app = .unlockingClosed → AppMove s { s with mutex := none, app := .closed }

/-- The steps of the poll thread. -/
inductive PollMove (s : KafkaRecoverableProducer) : KafkaRecoverableProducer → Prop
  | exit : s.poll = .loopHead ∨ s.poll = .checkStop → s.stop = true →
      PollMove s { s with poll := .exited }
  | enter : s.poll = .loopHead → PollMove s { s with poll := .polling }
  | serve (choice : Choice) (p : Handle) : s.poll = .polling → s.handle.serve choice = some p →
      PollMove s { s with handle := p }
  | polled : s.poll = .polling → PollMove s { s with poll := .checkFatal }
  | noFatal : s.poll = .checkFatal → PollMove s { s with poll := .loopHead }
  | fatal : s.poll = .checkFatal → PollMove s { s with poll := .purging }
  | purge : s.poll = .purging → PollMove s { s with handle := s.handle.purge, poll := .checkStop }
  | goOn : s.poll = .checkStop → PollMove s { s with poll := .resetFatal }
  | reset : s.poll = .resetFatal →
      PollMove s { s with handle := { s.handle with fatalError := false }, poll := .locking }
  | lock : s.poll = .locking → s.mutex = none →
      PollMove s { s with mutex := some .poll, poll := .closing .flushing }
  | closeOn (stage stage' : CloseStage) (choice : Choice) (p : Handle) :
      s.poll = .closing stage → closeStep true stage choice s.handle = some (some stage', p) →
      PollMove s { s with handle := p, poll := .closing stage' }
  | closeEnd (stage : CloseStage) (choice : Choice) (p : Handle) :
      s.poll = .closing stage → closeStep true stage choice s.handle = some (none, p) →
      PollMove s { s with handle := p, poll := .creating }
  | create : s.poll = .creating →
      PollMove s { s with handle := s.handle.recreate, poll := .unlocking }
  | unlock : s.poll = .unlocking → PollMove s { s with mutex := none, poll := .loopHead }

namespace KafkaRecoverableProducer

theorem appStep_move {s s' : KafkaRecoverableProducer} {choice : Choice}
    (h : s.appStep choice = some s') : AppMove s s' := by
  unfold appStep at h
  split at h
  case h_1 infinite hpc =>
    split at h
    next hexit => exact Option.some.inj h ▸ .join infinite hpc hexit
    next => simp at h
  case h_2 op hpc =>
    split at h
    next hfree => exact Option.some.inj h ▸ .lock op hpc hfree
    next => simp at h
  case h_3 hpc => exact Option.some.inj h ▸ .accept hpc
  case h_4 hpc => exact Option.some.inj h ▸ .reject (.inl hpc)
  case h_5 hpc => exact Option.some.inj h ▸ .syncAccept hpc
  case h_6 hpc => exact Option.some.inj h ▸ .reject (.inr hpc)
  case h_7 m hpc =>
    split at h
    next hm => exact Option.some.inj h ▸ .delivered m hpc hm
    next => simp at h
  case h_8 infinite hpc =>
    split at h
    next => simp at h
    next p hf =>
      rcases flushStep_cases hf with ⟨hr, -⟩ | ⟨hr, -⟩ | ⟨-, hserve⟩
      · simp at hr
      · simp at hr
      · exact Option.some.inj h ▸ .flushOn infinite _ p hpc hserve
    next p hf =>
      -- a flush that returns has served nothing in this step
      have hp : p = s.handle := by
        rcases flushStep_cases hf with ⟨-, hp, -⟩ | ⟨-, hp, -⟩ | ⟨hr, -⟩
        · exact hp
        · exact hp
        · simp at hr
      subst hp
      exact Option.some.inj h ▸ .flushed infinite hpc
  case h_9 hpc => exact Option.some.inj h ▸ .purge hpc
  case h_10 infinite stage hpc =>
    split at h
    next => simp at h
    next stage' p hcs =>
      exact Option.some.inj h ▸ .closeOn infinite stage stage' _ p hpc hcs
    next p hcs => exact Option.some.inj h ▸ .closeEnd infinite stage _ p hpc hcs
  case h_11 hpc => exact Option.some.inj h ▸ .unlock hpc
  case h_12 hpc => exact Option.some.inj h ▸ .unlockClosed hpc
  case h_13 => simp at h

theorem pollStep_move {s s' : KafkaRecoverableProducer} {choice : Choice}
    (h : s.pollStep choice = some s') : PollMove s s' := by
  unfold pollStep at h
  split at h
  case h_1 hpc =>
    cases hstop : s.stop with
    | true => exact Option.some.inj h ▸ by simpa [hstop] using PollMove.exit (.inl hpc) hstop
    | false => exact Option.some.inj h ▸ by simpa [hstop] using PollMove.enter hpc
  case h_2 hpc => exact Option.some.inj h ▸ .polled hpc
  case h_3 hpc _ =>
    obtain ⟨p, hp, rfl⟩ := Option.map_eq_some_iff.mp h
    exact .serve _ p hpc hp
  case h_4 hpc =>
    cases hf : s.handle.fatalError with
    | true => exact Option.some.inj h ▸ by simpa [hf] using PollMove.fatal hpc
    | false => exact Option.some.inj h ▸ by simpa [hf] using PollMove.noFatal hpc
  case h_5 hpc => exact Option.some.inj h ▸ .purge hpc
  case h_6 hpc =>
    cases hstop : s.stop with
    | true => exact Option.some.inj h ▸ by simpa [hstop] using PollMove.exit (.inr hpc) hstop
    | false => exact Option.some.inj h ▸ by simpa [hstop] using PollMove.goOn hpc
  case h_7 hpc => exact Option.some.inj h ▸ .reset hpc
  case h_8 hpc =>
    split at h
    next hfree => exact Option.some.inj h ▸ .lock hpc hfree
    next => simp at h
  case h_9 stage hpc =>
    split at h
    next => simp at h
    next stage' p hcs => exact Option.some.inj h ▸ .closeOn stage stage' _ p hpc hcs
    next p hcs => exact Option.some.inj h ▸ .closeEnd stage _ p hpc hcs
  case h_10 hpc => exact Option.some.inj h ▸ .create hpc
  case h_11 hpc => exact Option.some.inj h ▸ .unlock hpc
  case h_12 => simp at h

/-- The beginning of an operation. -/
theorem begin_cases {s s' : KafkaRecoverableProducer} {op : Op} (h : s.begin op = some s') :
    s.app = .idle ∧ ((∃ infinite, op = .close infinite ∧
        s' = { s with stop := true, app := .joining infinite }) ∨
      ((∀ infinite, op ≠ .close infinite) ∧ s' = { s with app := .locking op })) := by
  unfold begin at h
  split at h
  · next hpc => exact ⟨hpc, .inl ⟨_, rfl, (Option.some.inj h).symm⟩⟩
  · next hpc hop => exact ⟨hpc, .inr ⟨fun i hi => hop i hi, (Option.some.inj h).symm⟩⟩
  · simp at h

/-- librdkafka changes the handle only. -/
theorem rkStep_cases {s s' : KafkaRecoverableProducer} {e : RkEvent} (h : s.rkStep e = some s') :
    (∃ m p, s.handle.resolve m = some p ∧ s' = { s with handle := p }) ∨
      s' = { s with handle := s.handle.raiseFatal } := by
  cases e with
  | resolve m =>
    obtain ⟨p, hp, rfl⟩ := Option.map_eq_some_iff.mp h
    exact .inl ⟨m, p, hp, rfl⟩
  | raiseFatal => exact .inr (Option.some.inj h).symm

end KafkaRecoverableProducer

/-! ## §3. The mutex and the poll thread's end. -/

/-- The thread is inside the scope of the lock. -/
def AppPc.holds : AppPc → Bool
  | .sending | .syncSending | .syncWaiting _ | .flushing _ | .purging | .closing _ _
  | .unlocking | .unlockingClosed => true
  | _ => false

def PollPc.holds : PollPc → Bool
  | .closing _ | .creating | .unlocking => true
  | _ => false

/-- The poll thread has been joined. -/
def AppPc.joined : AppPc → Bool
  | .locking (.close _) | .closing _ _ | .unlockingClosed | .closed => true
  | _ => false

/-- Stop has been requested. -/
def AppPc.stopping : AppPc → Bool
  | .joining _ => true
  | pc => pc.joined

namespace KafkaRecoverableProducer

/-- The mutex is held by the thread in its scope, if any; and the poll thread ends before
`close` goes on, not before it begins. -/
structure Coherent (s : KafkaRecoverableProducer) : Prop where
  appHolds : s.app.holds = true ↔ s.mutex = some .app
  pollHolds : s.poll.holds = true ↔ s.mutex = some .poll
  stop_eq : s.stop = s.app.stopping
  exited : s.poll = .exited → s.stop = true
  joined : s.app.joined = true → s.poll = .exited

theorem coherent_new : Coherent {} := by
  constructor <;> simp [AppPc.holds, PollPc.holds, AppPc.stopping, AppPc.joined]

theorem coherent_begin {s s' : KafkaRecoverableProducer} (hs : s.Coherent) {op : Op}
    (h : s.begin op = some s') : s'.Coherent := by
  obtain ⟨h₁, h₂, h₃, h₄, h₅⟩ := hs
  obtain ⟨hpc, ⟨infinite, rfl, rfl⟩ | ⟨hop, rfl⟩⟩ := begin_cases h
  · constructor <;> simp_all [AppPc.holds, AppPc.stopping, AppPc.joined]
  · cases op <;> constructor <;> simp_all [AppPc.holds, AppPc.stopping, AppPc.joined]

theorem coherent_app {s s' : KafkaRecoverableProducer} (hs : s.Coherent) (h : AppMove s s') :
    s'.Coherent := by
  obtain ⟨h₁, h₂, h₃, h₄, h₅⟩ := hs
  cases h with
  | lock op hpc hfree =>
    cases op <;> constructor <;> simp_all [AppPc.holds, AppPc.stopping, AppPc.joined, Op.enter]
  | reject hpc =>
    rcases hpc with hpc | hpc <;> constructor <;>
      simp_all [AppPc.holds, AppPc.stopping, AppPc.joined]
  | _ => constructor <;> simp_all [AppPc.holds, AppPc.stopping, AppPc.joined]

theorem coherent_poll {s s' : KafkaRecoverableProducer} (hs : s.Coherent) (h : PollMove s s') :
    s'.Coherent := by
  obtain ⟨h₁, h₂, h₃, h₄, h₅⟩ := hs
  cases h with
  | exit hpc hstop => rcases hpc with hpc | hpc <;> constructor <;> simp_all [PollPc.holds]
  | _ => constructor <;> simp_all [PollPc.holds]

theorem coherent_rk {s s' : KafkaRecoverableProducer} (hs : s.Coherent) {e : RkEvent}
    (h : s.rkStep e = some s') : s'.Coherent := by
  rcases rkStep_cases h with ⟨m, p, -, rfl⟩ | rfl <;>
    exact ⟨hs.appHolds, hs.pollHolds, hs.stop_eq, hs.exited, hs.joined⟩

theorem coherent_step (s : KafkaRecoverableProducer) (a : Action) (s' : KafkaRecoverableProducer)
    (hs : s.Coherent) (h : s.step a = some s') : s'.Coherent := by
  match a with
  | .thread (.begin op) => exact coherent_begin hs h
  | .thread (.app choice) => exact coherent_app hs (appStep_move h)
  | .thread (.poll choice) => exact coherent_poll hs (pollStep_move h)
  | .rk e => exact coherent_rk hs h

/-- Inside the lock of an operation, the poll thread is not closing the producer. -/
theorem Coherent.poll_free {s : KafkaRecoverableProducer} (hs : s.Coherent)
    (h : s.app.holds = true) : s.poll.holds = false := by
  have happ : s.mutex = some .app := hs.appHolds.mp h
  rw [Bool.eq_false_iff]
  intro hpoll
  have hmutex : s.mutex = some .poll := hs.pollHolds.mp hpoll
  simp [happ] at hmutex

/-- As long as the poll thread runs, the application is not closing the producer. -/
theorem Coherent.not_joined {s : KafkaRecoverableProducer} (hs : s.Coherent)
    (h : s.poll ≠ .exited) : s.app.joined = false := by
  rw [Bool.eq_false_iff]
  exact fun hj => h (hs.joined hj)

end KafkaRecoverableProducer

/-! ## §4. The custody of callbacks, across producers. -/

/-- How far the thread has come with `_producer->close()`: at a stage of it, or past its end. -/
def AppPc.stage : AppPc → Option (Option CloseStage)
  | .closing _ stage => some (some stage)
  | .unlockingClosed | .closed => some none
  | _ => none

def PollPc.stage : PollPc → Option (Option CloseStage)
  | .closing stage => some (some stage)
  | .creating => some none
  | _ => none

theorem AppPc.stage_of_not_joined {pc : AppPc} (h : pc.joined = false) : pc.stage = none := by
  cases pc <;> simp_all [AppPc.joined, AppPc.stage]

theorem PollPc.stage_of_not_holds {pc : PollPc} (h : pc.holds = false) : pc.stage = none := by
  cases pc <;> simp_all [PollPc.holds, PollPc.stage]

/-- Entering an operation, nothing has been closed yet. -/
theorem Op.stageOk_enter (op : Op) (p : Handle) {stage : Option CloseStage}
    (h : op.enter.stage = some stage) : StageOk stage p := by
  cases op with
  | close infinite =>
    obtain rfl : some .flushing = stage := by simpa [Op.enter, AppPc.stage] using h
    trivial
  | _ => simp [Op.enter, AppPc.stage] at h

namespace KafkaRecoverableProducer

/-- The custody, and what a `close` under way has come to, by either thread. -/
structure Sound (s : KafkaRecoverableProducer) : Prop where
  handle : s.handle.Sound
  app : ∀ stage, s.app.stage = some stage → StageOk stage s.handle
  poll : ∀ stage, s.poll.stage = some stage → StageOk stage s.handle

theorem sound_new : Sound {} :=
  ⟨Handle.sound_new, fun _ h => by simp [AppPc.stage] at h, fun _ h => by simp [PollPc.stage] at h⟩

theorem sound_begin {s s' : KafkaRecoverableProducer} (hs : s.Sound) {op : Op}
    (h : s.begin op = some s') : s'.Sound := by
  obtain ⟨-, ⟨infinite, -, rfl⟩ | ⟨-, rfl⟩⟩ := begin_cases h
  · exact ⟨hs.handle, fun _ h => by simp [AppPc.stage] at h, hs.poll⟩
  · exact ⟨hs.handle, fun _ h => by simp [AppPc.stage] at h, hs.poll⟩

/-- What the application does to the handle, it does under the lock. -/
theorem sound_app {s s' : KafkaRecoverableProducer} (hc : s.Coherent) (hs : s.Sound)
    (h : AppMove s s') : s'.Sound := by
  -- a `close` by the poll thread is not under way then
  have hpoll (hh : s.app.holds = true) (p : Handle) :
      ∀ stage, s.poll.stage = some stage → StageOk stage p := by
    intro stage hst
    simp [PollPc.stage_of_not_holds (hc.poll_free hh)] at hst
  cases h with
  | join infinite hpc => exact ⟨hs.handle, fun _ h => by simp [AppPc.stage] at h, hs.poll⟩
  | lock op hpc hfree => exact ⟨hs.handle, fun _ => op.stageOk_enter s.handle, hs.poll⟩
  | accept hpc =>
    exact ⟨hs.handle.accept, fun _ h => by simp [AppPc.stage] at h,
      hpoll (by simp [hpc, AppPc.holds]) _⟩
  | syncAccept hpc =>
    exact ⟨hs.handle.accept, fun _ h => by simp [AppPc.stage] at h,
      hpoll (by simp [hpc, AppPc.holds]) _⟩
  | reject hpc =>
    refine ⟨hs.handle.reject, fun _ h => by simp [AppPc.stage] at h, hpoll ?_ _⟩
    rcases hpc with hpc | hpc <;> simp [hpc, AppPc.holds]
  | delivered m hpc hm => exact ⟨hs.handle, fun _ h => by simp [AppPc.stage] at h, hs.poll⟩
  | flushOn infinite choice p hpc hserve =>
    exact ⟨hs.handle.serve hserve, fun _ h => by simp [hpc, AppPc.stage] at h,
      hpoll (by simp [hpc, AppPc.holds]) _⟩
  | flushed infinite hpc => exact ⟨hs.handle, fun _ h => by simp [AppPc.stage] at h, hs.poll⟩
  | purge hpc =>
    exact ⟨hs.handle.purge, fun _ h => by simp [AppPc.stage] at h,
      hpoll (by simp [hpc, AppPc.holds]) _⟩
  | closeOn infinite stage stage' choice p hpc hcs =>
    have hst : StageOk (some stage) s.handle := hs.app _ (by simp [hpc, AppPc.stage])
    obtain ⟨hp, hst'⟩ := closeStep_spec hs.handle hst hcs
    refine ⟨hp, fun _ h => ?_, hpoll (by simp [hpc, AppPc.holds]) _⟩
    obtain rfl := Option.some.inj h
    exact hst'
  | closeEnd infinite stage choice p hpc hcs =>
    have hst : StageOk (some stage) s.handle := hs.app _ (by simp [hpc, AppPc.stage])
    obtain ⟨hp, hst'⟩ := closeStep_spec hs.handle hst hcs
    refine ⟨hp, fun _ h => ?_, hpoll (by simp [hpc, AppPc.holds]) _⟩
    obtain rfl := Option.some.inj h
    exact hst'
  | unlock hpc => exact ⟨hs.handle, fun _ h => by simp [AppPc.stage] at h, hs.poll⟩
  | unlockClosed hpc =>
    exact ⟨hs.handle, fun stage h => hs.app stage (by simpa [hpc, AppPc.stage] using h), hs.poll⟩

/-- What the poll thread does to the handle, with or without the lock, it does before the
application closes it. -/
theorem sound_poll {s s' : KafkaRecoverableProducer} (hc : s.Coherent) (hs : s.Sound)
    (h : PollMove s s') : s'.Sound := by
  have happ (hpc : s.poll ≠ .exited) (p : Handle) :
      ∀ stage, s.app.stage = some stage → StageOk stage p := by
    intro stage hst
    simp [AppPc.stage_of_not_joined (hc.not_joined hpc)] at hst
  cases h with
  | exit hpc hstop => exact ⟨hs.handle, hs.app, fun _ h => by simp [PollPc.stage] at h⟩
  | enter hpc => exact ⟨hs.handle, hs.app, fun _ h => by simp [PollPc.stage] at h⟩
  | serve choice p hpc hserve =>
    exact ⟨hs.handle.serve hserve, happ (by simp [hpc]) p,
      fun _ h => by simp [hpc, PollPc.stage] at h⟩
  | polled hpc => exact ⟨hs.handle, hs.app, fun _ h => by simp [PollPc.stage] at h⟩
  | noFatal hpc => exact ⟨hs.handle, hs.app, fun _ h => by simp [PollPc.stage] at h⟩
  | fatal hpc => exact ⟨hs.handle, hs.app, fun _ h => by simp [PollPc.stage] at h⟩
  | purge hpc =>
    exact ⟨hs.handle.purge, happ (by simp [hpc]) _, fun _ h => by simp [PollPc.stage] at h⟩
  | goOn hpc => exact ⟨hs.handle, hs.app, fun _ h => by simp [PollPc.stage] at h⟩
  | reset hpc =>
    exact ⟨⟨hs.handle.ledger, hs.handle.fresh⟩, happ (by simp [hpc]) _,
      fun _ h => by simp [PollPc.stage] at h⟩
  | lock hpc hfree =>
    refine ⟨hs.handle, hs.app, fun _ h => ?_⟩
    obtain rfl := Option.some.inj h
    trivial
  | closeOn stage stage' choice p hpc hcs =>
    have hst : StageOk (some stage) s.handle := hs.poll _ (by simp [hpc, PollPc.stage])
    obtain ⟨hp, hst'⟩ := closeStep_spec hs.handle hst hcs
    refine ⟨hp, happ (by simp [hpc]) _, fun _ h => ?_⟩
    obtain rfl := Option.some.inj h
    exact hst'
  | closeEnd stage choice p hpc hcs =>
    have hst : StageOk (some stage) s.handle := hs.poll _ (by simp [hpc, PollPc.stage])
    obtain ⟨hp, hst'⟩ := closeStep_spec hs.handle hst hcs
    refine ⟨hp, happ (by simp [hpc]) _, fun _ h => ?_⟩
    obtain rfl := Option.some.inj h
    exact hst'
  | create hpc =>
    -- `_producer->close()` has returned, so the old handle is drained
    have hdrained : s.handle.Drained := hs.poll none (by simp [hpc, PollPc.stage])
    exact ⟨hs.handle.recreate hdrained, happ (by simp [hpc]) _,
      fun _ h => by simp [PollPc.stage] at h⟩
  | unlock hpc => exact ⟨hs.handle, hs.app, fun _ h => by simp [PollPc.stage] at h⟩

theorem sound_rk {s s' : KafkaRecoverableProducer} (hs : s.Sound) {e : RkEvent}
    (h : s.rkStep e = some s') : s'.Sound := by
  rcases rkStep_cases h with ⟨m, p, hp, rfl⟩ | rfl
  · exact ⟨hs.handle.resolve hp, fun st hst => (hs.app st hst).resolve hp,
      fun st hst => (hs.poll st hst).resolve hp⟩
  · exact ⟨hs.handle.raiseFatal, fun st hst => (hs.app st hst).raiseFatal,
      fun st hst => (hs.poll st hst).raiseFatal⟩

theorem sound_step (s : KafkaRecoverableProducer) (a : Action) (s' : KafkaRecoverableProducer)
    (hs : s.Coherent ∧ s.Sound) (h : s.step a = some s') : s'.Coherent ∧ s'.Sound := by
  refine ⟨coherent_step s a s' hs.1 h, ?_⟩
  match a with
  | .thread (.begin op) => exact sound_begin hs.2 h
  | .thread (.app choice) => exact sound_app hs.1 hs.2 (appStep_move h)
  | .thread (.poll choice) => exact sound_poll hs.1 hs.2 (pollStep_move h)
  | .rk e => exact sound_rk hs.2 h

end KafkaRecoverableProducer

/-- Every run of a `KafkaRecoverableProducer`. -/
theorem recoverable_exactly_once (actions : List Action) (s : KafkaRecoverableProducer)
    (hrun : run KafkaRecoverableProducer.step {} actions = some s) :
    AtMostOnce s.handle ∧ (s.app = .closed → ExactlyOnce s.handle) := by
  obtain ⟨-, hs⟩ := run_invariant KafkaRecoverableProducer.sound_step
    ⟨KafkaRecoverableProducer.coherent_new, KafkaRecoverableProducer.sound_new⟩ hrun
  refine ⟨hs.handle.atMostOnce, fun hclosed => ?_⟩
  have hdrained : s.handle.Drained := hs.app none (by simp [hclosed, AppPc.stage])
  exact hs.handle.exactlyOnce hdrained

/-- **No callback is lost or run twice**, by a `KafkaProducer` or a `KafkaRecoverableProducer`,
however their users, threads and librdkafka interleave: at no time has one run twice, or one of
a `send` that threw run at all; and when `close` returns, with any timeout, the callback of each
`send` that returned normally has run once. -/
theorem callbacks_run_once :
    (∀ actions q, run KafkaProducer.step {} actions = some q →
      AtMostOnce q.handle ∧ (q.phase = .closed → ExactlyOnce q.handle)) ∧
    (∀ actions s, run KafkaRecoverableProducer.step {} actions = some s →
      AtMostOnce s.handle ∧ (s.app = .closed → ExactlyOnce s.handle)) :=
  ⟨producer_exactly_once, recoverable_exactly_once⟩

/-- A message purged by a recovery, one rejected, and one purged by `close` timing out. -/
def closedAfterRecovery : List Action :=
  [.thread (.begin .send), .thread (.app .go), .thread (.app .go), .thread (.app .go),
    .rk .raiseFatal,
    .thread (.begin .send), .thread (.app .go), .thread (.app .reject), .thread (.app .go),
    .thread (.poll .go), .thread (.poll .serveError), .thread (.poll .go), .thread (.poll .go),
    .thread (.poll .go), .thread (.poll .go), .thread (.poll .go), .thread (.poll .go),
    .thread (.poll .serveReport), .thread (.poll .go), .thread (.poll .go), .thread (.poll .go),
    .thread (.poll .go),
    .thread (.begin .send), .thread (.app .go), .thread (.app .go), .thread (.app .go),
    .thread (.begin (.close false)), .thread (.poll .go), .thread (.app .go), .thread (.app .go),
    .thread (.app .timeOut), .thread (.app .go), .thread (.app .go), .thread (.app .go)]

theorem callbacks_run_once_closedAfterRecovery :
    ∃ s, run KafkaRecoverableProducer.step {} closedAfterRecovery = some s ∧ s.app = .closed ∧
      s.handle.accepted = [0, 2] ∧ s.handle.rejected = [1] ∧
      AtMostOnce s.handle ∧ ExactlyOnce s.handle := by
  obtain ⟨s, hrun, happ, hacc, hrej⟩ :
      ∃ s, run KafkaRecoverableProducer.step {} closedAfterRecovery = some s ∧ s.app = .closed ∧
        s.handle.accepted = [0, 2] ∧ s.handle.rejected = [1] := ⟨_, rfl, rfl, rfl, rfl⟩
  obtain ⟨honce, hclosed⟩ := callbacks_run_once.2 closedAfterRecovery s hrun
  exact ⟨s, hrun, happ, hacc, hrej, honce, hclosed happ⟩

end ModernCppKafka.Producer
