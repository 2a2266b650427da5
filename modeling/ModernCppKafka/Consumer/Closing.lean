/-
  ModernCppKafka.Consumer.Closing — `KafkaConsumer::close`, against everything that goes on
  meanwhile.

  The user calls `commitAsync`, `pollEvents` and `close`; with automatic events polling a thread
  serves the answers to commits as well; librdkafka answers, and raises other events.  The steps
  of all these come in any order, and callbacks may call `commitAsync` too.  Assumed of
  librdkafka, as documented: `rd_kafka_consumer_close` returns only when no commit is left
  unanswered, and a commit accepted after it is answered at once.

  Main results:
    * `close_settles`     — when `close` returns, every callable was freed as it should be;
    * `close_returns`     — `close` does return, whatever order the steps come in;
    * `derefNull_iff`     — `_pollable` is used when null exactly by a `pollEvents` after `close`;
    * `polling_intercepted` — the thread's start and exit are intercepted once each.
-/
import ModernCppKafka.Clients.EventsPolling
import ModernCppKafka.Consumer.CommitCallbacks
import ModernCppKafka.Lib.Progress

namespace ModernCppKafka.Consumer.Closing

open ModernCppKafka.Clients
open ModernCppKafka.Clients.EventsPolling (threadStart threadExit threadRank)
open ModernCppKafka.Lib.Progress
open ModernCppKafka.Lib.Run

variable {Cb : Type}

/-! ## §1. The system. -/

/-- Where the user's thread is: outside, in `pollEvents`, or at a statement of `close`. -/
inductive Stage where
  | outside
  | pollEvents
  /-- In `_pollThread.reset()`. -/
  | joining
  /-- At `commitStoredOffsetsIfNecessary`; its exception is caught. -/
  | committing
  /-- In `rd_kafka_consumer_close`. -/
  | closingConsumer
  /-- In the loop over `rd_kafka_outq_len`. -/
  | servingEvents
  /-- In the loop over `rd_kafka_queue_length`. -/
  | servingCommits
  deriving DecidableEq, Repr

structure ConsumerSystem (Cb : Type) where
  callbacks : CommitCallbacks Cb := {}
  polling : EventsPolling
  /-- Events in librdkafka's main queue. -/
  events : ℕ := 0
  /-- `rd_kafka_consumer_close` has returned. -/
  consumerClosed : Bool := false
  stage : Stage := .outside

/-- The consumer its constructor leaves. -/
def start (isWithAutoEventsPolling : Bool) : ConsumerSystem Cb where
  polling := EventsPolling.startBackgroundPollingIfNecessary isWithAutoEventsPolling {}

inductive Action (Cb : Type) where
  /-- By the user, or within a callback. -/
  | commitAsync (topicPartitionOffsets : TopicPartitionOffsets)
      (offsetCommitCallback : Option Cb) (respErr closedErr : RespErr)
  | answer (answer : CommitAnswer)
  | raiseEvent
  /-- A step of the polling thread: it serves an answer, or goes on. -/
  | threadServe
  | thread
  /-- The user calls `pollEvents`, an answer is served there, and it returns. -/
  | pollEvents
  | pollServe
  | pollReturn
  | close
  /-- The next step of `close`. -/
  | closeStep

namespace ConsumerSystem

/-- One step of `close`. -/
def closeStep (s : ConsumerSystem Cb) : Option (ConsumerSystem Cb) :=
  match s.stage with
  | .joining => s.polling.join.map fun polling => { s with polling, stage := .committing }
  | .committing => some { s with stage := .closingConsumer }
  | .closingConsumer =>
    if s.callbacks.pending = [] then
      some { s with consumerClosed := true, stage := .servingEvents }
    else none
  | .servingEvents =>
    match s.events with
    | 0 => some { s with stage := .servingCommits }
    | events + 1 => some { s with events }
  | .servingCommits =>
    match s.callbacks.serve with
    | none => some { s with stage := .outside }
    | some callbacks => some { s with callbacks }
  | _ => none

def step (s : ConsumerSystem Cb) : Action Cb → Option (ConsumerSystem Cb)
  | .commitAsync tpos cb respErr closedErr =>
    let closedErr := if s.consumerClosed then some closedErr else none
    some { s with callbacks := s.callbacks.commitAsync tpos cb respErr closedErr }
  | .answer answer => (s.callbacks.answer answer).map fun callbacks => { s with callbacks }
  | .raiseEvent => some { s with events := s.events + 1 }
  | .threadServe =>
    if s.polling.pollThread = some .polling then
      s.callbacks.serve.map fun callbacks => { s with callbacks }
    else none
  | .thread => s.polling.threadStep.map fun polling => { s with polling }
  | .pollEvents =>
    if s.stage = .outside then some { s with polling := s.polling.enter, stage := .pollEvents }
    else none
  | .pollServe =>
    if s.stage = .pollEvents then s.callbacks.serve.map fun callbacks => { s with callbacks } else none
  | .pollReturn => if s.stage = .pollEvents then some { s with stage := .outside } else none
  | .close =>
    if s.stage = .outside then
      some { s with polling := s.polling.requestStop, stage := .joining }
    else none
  | .closeStep => s.closeStep

/-- `close` has been called and has not returned. -/
def InClose (s : ConsumerSystem Cb) : Prop := s.stage ≠ .outside ∧ s.stage ≠ .pollEvents

end ConsumerSystem

/-! ## §2. What a step does. -/

/-- The steps of `close`. -/
inductive CloseStep (s : ConsumerSystem Cb) : ConsumerSystem Cb → Prop where
  | join {polling : EventsPolling} (hstage : s.stage = .joining)
      (hjoin : s.polling.join = some polling) : CloseStep s { s with polling, stage := .committing }
  | commit (hstage : s.stage = .committing) : CloseStep s { s with stage := .closingConsumer }
  | closeConsumer (hstage : s.stage = .closingConsumer) (hpending : s.callbacks.pending = []) :
      CloseStep s { s with consumerClosed := true, stage := .servingEvents }
  | serveEvent {events : ℕ} (hstage : s.stage = .servingEvents) (hevents : s.events = events + 1) :
      CloseStep s { s with events }
  | noEvent (hstage : s.stage = .servingEvents) : CloseStep s { s with stage := .servingCommits }
  | serveCommit {callbacks : CommitCallbacks Cb} (hstage : s.stage = .servingCommits)
      (hserve : s.callbacks.serve = some callbacks) : CloseStep s { s with callbacks }
  | finish (hstage : s.stage = .servingCommits) (hqueue : s.callbacks.queue = []) :
      CloseStep s { s with stage := .outside }

theorem closeStep_cases {s s' : ConsumerSystem Cb} (h : s.closeStep = some s') :
    CloseStep s s' := by
  unfold ConsumerSystem.closeStep at h
  cases hstage : s.stage <;> simp only [hstage] at h
  case joining =>
    obtain ⟨polling, hjoin, rfl⟩ := Option.map_eq_some_iff.mp h
    exact .join hstage hjoin
  case committing => exact Option.some.inj h ▸ .commit hstage
  case closingConsumer =>
    split at h
    next hpending => exact Option.some.inj h ▸ .closeConsumer hstage hpending
    next => simp at h
  case servingEvents =>
    split at h
    next => exact Option.some.inj h ▸ .noEvent hstage
    next hevents =>
      rw [← Option.some.inj h, ← hstage]
      exact .serveEvent hstage hevents
  case servingCommits =>
    split at h
    next hserve => exact Option.some.inj h ▸ .finish hstage (CommitCallbacks.serve_eq_none hserve)
    next hserve =>
      rw [← Option.some.inj h, ← hstage]
      exact .serveCommit hstage hserve
  all_goals simp at h

/-- What a step does to the callables. -/
inductive CallbacksStep (s s' : ConsumerSystem Cb) : Prop where
  | same (h : s'.callbacks = s.callbacks)
  | commitAsync (tpos : TopicPartitionOffsets) (cb : Option Cb) (respErr : RespErr)
      (closedErr : Option RespErr) (hclosed : s.consumerClosed = true → closedErr ≠ none)
      (h : s'.callbacks = s.callbacks.commitAsync tpos cb respErr closedErr)
  | answer (answer : CommitAnswer) (h : s.callbacks.answer answer = some s'.callbacks)
  | serve (h : s.callbacks.serve = some s'.callbacks)

theorem CloseStep.callbacks {s s' : ConsumerSystem Cb} (h : CloseStep s s') :
    CallbacksStep s s' := by
  cases h with
  | serveCommit _ hserve => exact .serve hserve
  | _ => exact .same rfl

theorem step_callbacks {s s' : ConsumerSystem Cb} {a : Action Cb} (h : s.step a = some s') :
    CallbacksStep s s' := by
  cases a <;> simp only [ConsumerSystem.step] at h
  case commitAsync tpos cb respErr closedErr =>
    obtain rfl := Option.some.inj h
    exact .commitAsync tpos cb respErr _ (by simp_all) rfl
  case answer answer =>
    obtain ⟨callbacks, ha, rfl⟩ := Option.map_eq_some_iff.mp h
    exact .answer answer ha
  case raiseEvent => exact Option.some.inj h ▸ .same rfl
  case thread =>
    obtain ⟨polling, -, rfl⟩ := Option.map_eq_some_iff.mp h
    exact .same rfl
  case closeStep => exact (closeStep_cases h).callbacks
  case threadServe | pollServe =>
    obtain ⟨-, h⟩ := Option.ite_none_right_eq_some.mp h
    obtain ⟨callbacks, hserve, rfl⟩ := Option.map_eq_some_iff.mp h
    exact .serve hserve
  case pollEvents | pollReturn | close =>
    obtain ⟨-, h⟩ := Option.ite_none_right_eq_some.mp h
    exact Option.some.inj h ▸ .same rfl

/-- What a step does to the polling thread, and where it leaves the user's. -/
inductive ControlStep (s : ConsumerSystem Cb) (a : Action Cb) (s' : ConsumerSystem Cb) :
    Prop where
  | same (ha : a ≠ .pollEvents ∧ a ≠ .close) (hpolling : s'.polling = s.polling)
      (hclosed : s'.consumerClosed = s.consumerClosed) (hstage : s'.stage = s.stage)
  | thread (ha : a ≠ .pollEvents ∧ a ≠ .close)
      (hpolling : s.polling.threadStep = some s'.polling)
      (hclosed : s'.consumerClosed = s.consumerClosed) (hstage : s'.stage = s.stage)
  | pollEvents (ha : a = .pollEvents) (hstage : s.stage = .outside)
      (h : s' = { s with polling := s.polling.enter, stage := .pollEvents })
  | pollReturn (ha : a ≠ .pollEvents ∧ a ≠ .close) (hstage : s.stage = .pollEvents)
      (h : s' = { s with stage := .outside })
  | close (ha : a = .close) (hstage : s.stage = .outside)
      (h : s' = { s with polling := s.polling.requestStop, stage := .joining })
  | closeStep (ha : a ≠ .pollEvents ∧ a ≠ .close) (h : CloseStep s s')

theorem step_control {s s' : ConsumerSystem Cb} {a : Action Cb} (h : s.step a = some s') :
    ControlStep s a s' := by
  cases a <;> simp only [ConsumerSystem.step] at h
  case commitAsync | raiseEvent => exact Option.some.inj h ▸ .same (by simp) rfl rfl rfl
  case answer answer =>
    obtain ⟨callbacks, -, rfl⟩ := Option.map_eq_some_iff.mp h
    exact .same (by simp) rfl rfl rfl
  case thread =>
    obtain ⟨polling, hpolling, rfl⟩ := Option.map_eq_some_iff.mp h
    exact .thread (by simp) hpolling rfl rfl
  case closeStep => exact .closeStep (by simp) (closeStep_cases h)
  case threadServe | pollServe =>
    obtain ⟨-, h⟩ := Option.ite_none_right_eq_some.mp h
    obtain ⟨callbacks, -, rfl⟩ := Option.map_eq_some_iff.mp h
    exact .same (by simp) rfl rfl rfl
  case pollEvents =>
    obtain ⟨hstage, h⟩ := Option.ite_none_right_eq_some.mp h
    exact .pollEvents rfl hstage (Option.some.inj h).symm
  case pollReturn =>
    obtain ⟨hstage, h⟩ := Option.ite_none_right_eq_some.mp h
    exact .pollReturn (by simp) hstage (Option.some.inj h).symm
  case close =>
    obtain ⟨hstage, h⟩ := Option.ite_none_right_eq_some.mp h
    exact .close rfl hstage (Option.some.inj h).symm

/-! ## §3. The invariant. -/

/-- Stages of `close` after the thread was joined. -/
def Stage.AfterJoin (stage : Stage) : Prop :=
  stage = .committing ∨ stage = .closingConsumer ∨ stage = .servingEvents ∨
    stage = .servingCommits

/-- Stages of `close` after `rd_kafka_consumer_close`. -/
def Stage.Serving (stage : Stage) : Prop := stage = .servingEvents ∨ stage = .servingCommits

/-- What a stage of `close` asks for, but for the callables. -/
structure StageOk (s : ConsumerSystem Cb) : Prop where
  serving : s.stage.Serving → s.consumerClosed = true
  reset : s.stage.AfterJoin → s.polling.pollable = false
  stop : s.InClose → s.polling.stopRequested = true

structure Sound (auto : Bool) (s : ConsumerSystem Cb) : Prop where
  callbacks : s.callbacks.Sound
  polling : s.polling.Sound auto
  /-- A closed librdkafka consumer owes no answer. -/
  pending : s.consumerClosed = true → s.callbacks.pending = []
  stage : StageOk s

theorem sound_start (auto : Bool) : Sound auto (start auto : ConsumerSystem Cb) where
  callbacks := CommitCallbacks.sound_empty
  polling := EventsPolling.sound_start auto
  pending := fun h => by simp [start] at h
  stage :=
    ⟨fun h => by simp [start, Stage.Serving] at h, fun h => by simp [start, Stage.AfterJoin] at h,
      fun h => by simp [start, ConsumerSystem.InClose] at h⟩

theorem CallbacksStep.sound {s s' : ConsumerSystem Cb} (h : CallbacksStep s s')
    (hs : s.callbacks.Sound) : s'.callbacks.Sound := by
  cases h with
  | same h => exact h ▸ hs
  | commitAsync tpos cb respErr closedErr hclosed h =>
    exact h ▸ hs.commitAsync tpos cb respErr closedErr
  | answer answer h => exact hs.answer h
  | serve h => exact hs.serve h

/-- Once the consumer is closed no commit is left unanswered, nor becomes so. -/
theorem CallbacksStep.pending {s s' : ConsumerSystem Cb} (h : CallbacksStep s s')
    (hclosed : s.consumerClosed = true) (hnil : s.callbacks.pending = []) :
    s'.callbacks.pending = [] := by
  cases h with
  | same h => exact h ▸ hnil
  | commitAsync tpos cb respErr closedErr hne h =>
    rw [h]
    exact CommitCallbacks.commitAsync_pending_nil hnil tpos cb respErr (hne hclosed)
  | answer answer h => simp [CommitCallbacks.answer, hnil] at h
  | serve h => rw [(CommitCallbacks.serve_cases h).1, hnil]

theorem ControlStep.polling {auto : Bool} {s s' : ConsumerSystem Cb} {a : Action Cb}
    (h : ControlStep s a s') (hs : s.polling.Sound auto) : s'.polling.Sound auto := by
  cases h with
  | same _ hpolling => exact hpolling ▸ hs
  | thread _ hpolling => exact (hs.threadStep hpolling).1
  | pollEvents _ _ h => exact h ▸ hs.enter
  | pollReturn _ _ h => exact h ▸ hs
  | close _ _ h => exact h ▸ hs.requestStop
  | closeStep _ h =>
    cases h with
    | join _ hjoin => exact (hs.join hjoin).1
    | _ => exact hs

theorem CloseStep.stageOk {s s' : ConsumerSystem Cb} (h : CloseStep s s') (hs : StageOk s) :
    StageOk s' := by
  have hin : s.InClose → s.polling.stopRequested = true := hs.stop
  cases h with
  | join hstage hjoin =>
    have hstop : s.polling.stopRequested = true := hin (by simp [ConsumerSystem.InClose, hstage])
    unfold EventsPolling.join at hjoin
    obtain ⟨-, hjoin⟩ := Option.ite_none_right_eq_some.mp hjoin
    obtain rfl := Option.some.inj hjoin
    exact ⟨fun h => by simp [Stage.Serving] at h, fun _ => rfl, fun _ => hstop⟩
  | commit hstage =>
    have hreset : s.polling.pollable = false := hs.reset (by simp [Stage.AfterJoin, hstage])
    have hstop : s.polling.stopRequested = true := hin (by simp [ConsumerSystem.InClose, hstage])
    exact ⟨fun h => by simp [Stage.Serving] at h, fun _ => hreset, fun _ => hstop⟩
  | closeConsumer hstage =>
    have hreset : s.polling.pollable = false := hs.reset (by simp [Stage.AfterJoin, hstage])
    have hstop : s.polling.stopRequested = true := hin (by simp [ConsumerSystem.InClose, hstage])
    exact ⟨fun _ => rfl, fun _ => hreset, fun _ => hstop⟩
  | noEvent hstage =>
    have hclosed : s.consumerClosed = true := hs.serving (by simp [Stage.Serving, hstage])
    have hreset : s.polling.pollable = false := hs.reset (by simp [Stage.AfterJoin, hstage])
    have hstop : s.polling.stopRequested = true := hin (by simp [ConsumerSystem.InClose, hstage])
    exact ⟨fun _ => hclosed, fun _ => hreset, fun _ => hstop⟩
  | serveEvent | serveCommit => exact ⟨hs.serving, hs.reset, hin⟩
  | finish =>
    exact ⟨fun h => by simp [Stage.Serving] at h, fun h => by simp [Stage.AfterJoin] at h,
      fun h => by simp [ConsumerSystem.InClose] at h⟩

theorem ControlStep.stageOk {s s' : ConsumerSystem Cb} {a : Action Cb}
    (h : ControlStep s a s') (hs : StageOk s) : StageOk s' := by
  cases h with
  | same _ hpolling hclosed hstage =>
    constructor
    · rw [hstage, hclosed]
      exact hs.serving
    · rw [hstage, hpolling]
      exact hs.reset
    · rw [ConsumerSystem.InClose, hstage, hpolling]
      exact hs.stop
  | thread _ hpolling hclosed hstage =>
    obtain ⟨hreset, hstop⟩ := EventsPolling.threadStep_keeps hpolling
    constructor
    · rw [hstage, hclosed]
      exact hs.serving
    · rw [hstage, hreset]
      exact hs.reset
    · rw [ConsumerSystem.InClose, hstage, hstop]
      exact hs.stop
  | pollEvents _ _ h =>
    rw [h]
    exact ⟨fun h => by simp [Stage.Serving] at h, fun h => by simp [Stage.AfterJoin] at h,
      fun h => by simp [ConsumerSystem.InClose] at h⟩
  | pollReturn _ _ h =>
    rw [h]
    exact ⟨fun h => by simp [Stage.Serving] at h, fun h => by simp [Stage.AfterJoin] at h,
      fun h => by simp [ConsumerSystem.InClose] at h⟩
  | close _ _ h =>
    rw [h]
    exact ⟨fun h => by simp [Stage.Serving] at h, fun h => by simp [Stage.AfterJoin] at h,
      fun _ => rfl⟩
  | closeStep _ h => exact h.stageOk hs

/-- The consumer becomes closed when librdkafka owes nothing. -/
theorem ControlStep.consumerClosed {s s' : ConsumerSystem Cb} {a : Action Cb}
    (h : ControlStep s a s') (hclosed : s'.consumerClosed = true) :
    s.consumerClosed = true ∨ s'.callbacks.pending = [] := by
  cases h with
  | same _ _ h => exact .inl (h ▸ hclosed)
  | thread _ _ h => exact .inl (h ▸ hclosed)
  | pollEvents _ _ h | pollReturn _ _ h | close _ _ h => exact .inl (by simpa [h] using hclosed)
  | closeStep _ h =>
    cases h with
    | closeConsumer _ hpending => exact .inr hpending
    | _ => exact .inl hclosed

theorem sound_step (auto : Bool) (s : ConsumerSystem Cb) (a : Action Cb) (s' : ConsumerSystem Cb)
    (hs : Sound auto s) (h : s.step a = some s') : Sound auto s' where
  callbacks := (step_callbacks h).sound hs.callbacks
  polling := (step_control h).polling hs.polling
  pending := fun hclosed => by
    cases (step_control h).consumerClosed hclosed with
    | inl hbefore => exact (step_callbacks h).pending hbefore (hs.pending hbefore)
    | inr hnil => exact hnil
  stage := (step_control h).stageOk hs.stage

theorem sound_run {auto : Bool} {actions : List (Action Cb)} {s : ConsumerSystem Cb}
    (hrun : run ConsumerSystem.step (start auto) actions = some s) : Sound auto s :=
  run_invariant (sound_step auto) (sound_start auto) hrun

/-! ## §4. When `close` returns. -/

/-- The step by which `close` returns finds nothing left to serve. -/
theorem callbacks_of_return {s s' : ConsumerSystem Cb} {a : Action Cb} (hclose : s.InClose)
    (h : s.step a = some s') (hreturned : ¬ s'.InClose) :
    s.stage = .servingCommits ∧ s.callbacks.queue = [] ∧ s'.callbacks = s.callbacks := by
  obtain ⟨hout, hpoll⟩ := hclose
  cases step_control h with
  | same _ _ _ hstage | thread _ _ _ hstage =>
    exact absurd ⟨hstage ▸ hout, hstage ▸ hpoll⟩ hreturned
  | pollEvents _ hstage => exact absurd hstage hout
  | pollReturn _ hstage => exact absurd hstage hpoll
  | close _ hstage => exact absurd hstage hout
  | closeStep _ h =>
    cases h with
    | finish hstage hqueue => exact ⟨hstage, hqueue, rfl⟩
    | serveEvent | serveCommit => exact absurd ⟨hout, hpoll⟩ hreturned
    | _ => exact absurd ⟨by simp, by simp⟩ hreturned

/-- **The callbacks of `commitAsync`**: at any time none was freed twice, and those run had their
answers, in order; and whenever `close` returns, all callables were freed, once each, but for
those of the `commitAsync` that threw. -/
theorem close_settles (auto : Bool) (actions : List (Action Cb)) (s : ConsumerSystem Cb)
    (hrun : run ConsumerSystem.step (start auto) actions = some s) :
    s.callbacks.RunOnce ∧
    ∀ a s', s.InClose → s.step a = some s' → ¬ s'.InClose → s'.callbacks.Settled := by
  have hs : Sound auto s := sound_run hrun
  refine ⟨hs.callbacks.runOnce, fun a s' hclose hstep hreturned => ?_⟩
  obtain ⟨hstage, hqueue, hsame⟩ := callbacks_of_return hclose hstep hreturned
  have hpending : s.callbacks.pending = [] :=
    hs.pending (hs.stage.serving (by simp [Stage.Serving, hstage]))
  rw [hsame]
  exact hs.callbacks.settled hpending hqueue

/-- A commit by the user, its answer served by the polling thread, one by a callback that
librdkafka refuses, and `close` up to its last step. -/
def commitsThenCloses : List (Action Unit) :=
  [.commitAsync ∅ (some ()) RD_KAFKA_RESP_ERR_NO_ERROR RD_KAFKA_RESP_ERR_NO_ERROR,
    .thread, .thread, .answer ⟨0, RD_KAFKA_RESP_ERR_NO_ERROR, none⟩, .threadServe,
    .commitAsync ∅ none RD_KAFKA_RESP_ERR__NO_OFFSET RD_KAFKA_RESP_ERR_NO_ERROR,
    .close, .thread, .thread, .thread, .closeStep, .closeStep, .closeStep, .closeStep]

theorem close_settles_commits : ∃ s s', run ConsumerSystem.step (start true) commitsThenCloses
    = some s ∧ s.step .closeStep = some s' ∧ s'.callbacks.Settled ∧ s'.callbacks.freed = [0] :=
  ⟨_, _, rfl, rfl, (close_settles true commitsThenCloses _ rfl).2 .closeStep _
    ⟨by decide, by decide⟩ rfl (by simp [ConsumerSystem.InClose]), rfl⟩

/-! ## §5. `close` does return. -/

/-- The steps of `close`, of the thread it waits for and of librdkafka's answers; what would
give them more to do is left out. -/
def Action.OfClosing : Action Cb → Prop
  | .answer _ | .threadServe | .thread | .closeStep => True
  | _ => False

/-- Statements `close` has before it. -/
def Stage.rank : Stage → ℕ
  | .joining => 5
  | .committing => 4
  | .closingConsumer => 3
  | .servingEvents => 2
  | .servingCommits => 1
  | _ => 0

/-- Steps that `close` may take yet.  A commit is answered, and its answer served. -/
def ConsumerSystem.remaining (s : ConsumerSystem Cb) : ℕ :=
  2 * s.callbacks.pending.length + s.callbacks.queue.length + s.events
    + threadRank s.polling.pollThread + s.stage.rank

/-- `close` is under way, or has returned. -/
structure Closes (s : ConsumerSystem Cb) : Prop where
  stage : s.stage ≠ .pollEvents
  stop : s.polling.stopRequested = true

theorem length_of_serve {c c' : CommitCallbacks Cb} (h : c.serve = some c') :
    c.pending.length = c'.pending.length ∧ c.queue.length = c'.queue.length + 1 := by
  obtain ⟨hpending, answer, hqueue⟩ := CommitCallbacks.serve_cases h
  rw [hpending, hqueue, List.length_cons]
  exact ⟨rfl, rfl⟩

theorem length_of_answer {c c' : CommitCallbacks Cb} {answer : CommitAnswer}
    (h : c.answer answer = some c') : c.pending.length = c'.pending.length + 1 ∧
      c'.queue.length = c.queue.length + 1 := by
  obtain ⟨hin, hpending, hqueue⟩ := CommitCallbacks.answer_cases h
  have hpos : 0 < c.pending.length := List.length_pos_of_mem hin
  rw [hpending, hqueue, List.length_erase_of_mem hin, List.length_append, List.length_singleton]
  omega

theorem CloseStep.closes {s s' : ConsumerSystem Cb} (h : CloseStep s s') (hs : Closes s) :
    Closes s' ∧ s'.remaining < s.remaining := by
  obtain ⟨hpoll, hstop⟩ := hs
  unfold ConsumerSystem.remaining
  cases h with
  | join hstage hjoin =>
    -- the thread is gone, with all the steps it had left
    unfold EventsPolling.join at hjoin
    obtain ⟨-, hjoin⟩ := Option.ite_none_right_eq_some.mp hjoin
    obtain rfl := Option.some.inj hjoin
    refine ⟨⟨by simp, hstop⟩, ?_⟩
    simp only [hstage, Stage.rank, threadRank]
    omega
  | serveEvent hstage hevents =>
    refine ⟨⟨hpoll, hstop⟩, ?_⟩
    simp only [hevents]
    omega
  | serveCommit hstage hserve =>
    refine ⟨⟨hpoll, hstop⟩, ?_⟩
    obtain ⟨hpending, hqueue⟩ := length_of_serve hserve
    simp only [hpending, hqueue]
    omega
  | commit hstage | closeConsumer hstage | noEvent hstage | finish hstage =>
    refine ⟨⟨by simp, hstop⟩, ?_⟩
    simp only [hstage, Stage.rank]
    omega

theorem closes_step {s s' : ConsumerSystem Cb} {a : Action Cb} (hs : Closes s)
    (ha : a.OfClosing) (h : s.step a = some s') : Closes s' ∧ s'.remaining < s.remaining := by
  cases a <;> simp only [ConsumerSystem.step, Action.OfClosing] at h ha
  case answer answer =>
    obtain ⟨callbacks, hanswer, rfl⟩ := Option.map_eq_some_iff.mp h
    obtain ⟨hpending, hqueue⟩ := length_of_answer hanswer
    refine ⟨⟨hs.stage, hs.stop⟩, ?_⟩
    simp only [ConsumerSystem.remaining, hpending, hqueue]
    omega
  case threadServe =>
    obtain ⟨-, h⟩ := Option.ite_none_right_eq_some.mp h
    obtain ⟨callbacks, hserve, rfl⟩ := Option.map_eq_some_iff.mp h
    obtain ⟨hpending, hqueue⟩ := length_of_serve hserve
    refine ⟨⟨hs.stage, hs.stop⟩, ?_⟩
    simp only [ConsumerSystem.remaining, hpending, hqueue]
    omega
  case thread =>
    obtain ⟨polling, hthread, rfl⟩ := Option.map_eq_some_iff.mp h
    have hrank := EventsPolling.threadRank_threadStep hs.stop hthread
    have hstop := (EventsPolling.threadStep_keeps hthread).2
    refine ⟨⟨hs.stage, hstop.trans hs.stop⟩, ?_⟩
    simp only [ConsumerSystem.remaining]
    omega
  case closeStep => exact (closeStep_cases h).closes hs

/-- Until `close` has returned, one of the steps it waits for is possible. -/
theorem closes_moves {s : ConsumerSystem Cb} (hs : Closes s) (hout : s.stage ≠ .outside) :
    ∃ a s', a.OfClosing ∧ s.step a = some s' := by
  cases hstage : s.stage with
  | outside => exact absurd hstage hout
  | pollEvents => exact absurd hstage hs.stage
  | joining =>
    cases hjoin : s.polling.join with
    | some polling =>
      exact ⟨.closeStep, { s with polling, stage := .committing }, trivial,
        by simp [ConsumerSystem.step, ConsumerSystem.closeStep, hstage, hjoin]⟩
    | none =>
      -- the thread is not gone, so it can go on
      obtain ⟨polling, hthread⟩ := EventsPolling.threadStep_of_join_eq_none hjoin
      exact ⟨.thread, { s with polling }, trivial, by simp [ConsumerSystem.step, hthread]⟩
  | closingConsumer =>
    cases hpending : s.callbacks.pending with
    | nil =>
      exact ⟨.closeStep, { s with consumerClosed := true, stage := .servingEvents }, trivial,
        by simp [ConsumerSystem.step, ConsumerSystem.closeStep, hstage, hpending]⟩
    | cons p pending =>
      -- librdkafka answers the first commit it owes an answer
      let answer : CommitAnswer := ⟨p, RD_KAFKA_RESP_ERR_NO_ERROR, none⟩
      have hin : answer.opaqueId ∈ s.callbacks.pending := by simp [answer, hpending]
      obtain ⟨callbacks, hanswer⟩ := CommitCallbacks.exists_answer hin
      exact ⟨.answer answer, { s with callbacks }, trivial,
        by simp [ConsumerSystem.step, hanswer]⟩
  | committing | servingEvents | servingCommits =>
    have hstep : ∃ s', s.closeStep = some s' := by
      unfold ConsumerSystem.closeStep
      simp only [hstage]
      first
        | exact ⟨_, rfl⟩
        | split <;> exact ⟨_, rfl⟩
    obtain ⟨s', hstep⟩ := hstep
    exact ⟨.closeStep, s', trivial, hstep⟩

theorem closing_completes : Completes (@ConsumerSystem.step Cb) Action.OfClosing Closes
    (·.stage = .outside) ConsumerSystem.remaining where
  keeps := fun _ _ _ hs ha h => (closes_step hs ha h).1
  falls := fun _ _ _ hs ha h => (closes_step hs ha h).2
  moves := fun _ hs hout => closes_moves hs hout

/-- A `pollEvents` comes after a `close`. -/
def PollsAfterClose (actions : List (Action Cb)) : Prop :=
  ∃ pre post, actions = pre ++ .pollEvents :: post ∧ .close ∈ pre

theorem pollsAfterClose_snoc {actions : List (Action Cb)} {a : Action Cb} :
    PollsAfterClose (actions ++ [a]) ↔
      PollsAfterClose actions ∨ (a = .pollEvents ∧ .close ∈ actions) := by
  constructor
  · intro h
    obtain ⟨pre, post, heq, hclose⟩ := h
    rcases List.eq_nil_or_concat post with rfl | ⟨post, b, rfl⟩
    · obtain ⟨rfl, heq⟩ := List.append_inj' heq rfl
      exact .inr ⟨by simpa using heq, hclose⟩
    · obtain ⟨rfl, -⟩ := List.append_inj'
        (heq.trans (by simp : _ = (pre ++ .pollEvents :: post) ++ [b])) rfl
      exact .inl ⟨pre, post, rfl, hclose⟩
  · intro h
    cases h with
    | inl h =>
      obtain ⟨pre, post, rfl, hclose⟩ := h
      exact ⟨pre, post ++ [a], by simp, hclose⟩
    | inr h => exact ⟨actions, [], by rw [h.1], h.2⟩

/-- The state tells what the user has called. -/
structure Called (auto : Bool) (actions : List (Action Cb)) (s : ConsumerSystem Cb) : Prop where
  sound : Sound auto s
  close : .close ∈ actions ↔ s.polling.pollable = false ∨ s.InClose
  polls : s.polling.derefNull = true ↔ PollsAfterClose actions

theorem called_start (auto : Bool) : Called auto [] (start auto : ConsumerSystem Cb) where
  sound := sound_start auto
  close := by
    simp [start, EventsPolling.startBackgroundPollingIfNecessary, ConsumerSystem.InClose]
  polls := by
    simp [start, EventsPolling.startBackgroundPollingIfNecessary, PollsAfterClose]

/-- A step of `close` resets `_pollable` and never uses it. -/
theorem CloseStep.pollable {s s' : ConsumerSystem Cb} (h : CloseStep s s') {auto : Bool}
    (hs : Sound auto s) : s.InClose ∧ (s'.polling.pollable = false ∨ s'.InClose) ∧
      s'.polling.derefNull = s.polling.derefNull := by
  cases h with
  | join hstage hjoin =>
    obtain ⟨-, hderef, hreset⟩ := hs.polling.join hjoin
    exact ⟨by simp [ConsumerSystem.InClose, hstage], .inl hreset, hderef⟩
  | finish hstage =>
    have hreset : s.polling.pollable = false := hs.stage.reset (by simp [Stage.AfterJoin, hstage])
    exact ⟨by simp [ConsumerSystem.InClose, hstage], .inl hreset, rfl⟩
  | commit hstage | closeConsumer hstage | noEvent hstage | serveEvent hstage
  | serveCommit hstage =>
    exact ⟨by simp [ConsumerSystem.InClose, hstage],
      .inr (by simp [ConsumerSystem.InClose, hstage]), rfl⟩

theorem called_step (auto : Bool) (pre : List (Action Cb)) (s : ConsumerSystem Cb)
    (a : Action Cb) (s' : ConsumerSystem Cb) (hs : Called auto pre s) (h : s.step a = some s') :
    Called auto (pre ++ [a]) s' := by
  have hmem (hne : a ≠ .close) : .close ∈ pre ++ [a] ↔ .close ∈ pre := by
    simp [hne.symm]
  have hpolls (hne : a ≠ .pollEvents) : PollsAfterClose (pre ++ [a]) ↔ PollsAfterClose pre := by
    simp [pollsAfterClose_snoc, hne]
  have hsound : Sound auto s' := sound_step auto s a s' hs.sound h
  cases step_control h with
  | same ha hpolling _ hstage =>
    refine ⟨hsound, ?_, ?_⟩
    · rw [hmem ha.2, hs.close, hpolling, ConsumerSystem.InClose, ConsumerSystem.InClose, hstage]
    · rw [hpolls ha.1, hpolling, hs.polls]
  | thread ha hpolling _ hstage =>
    have hreset := (EventsPolling.threadStep_keeps hpolling).1
    have hderef := (hs.sound.polling.threadStep hpolling).2
    refine ⟨hsound, ?_, ?_⟩
    · rw [hmem ha.2, hs.close, hreset, ConsumerSystem.InClose, ConsumerSystem.InClose, hstage]
    · rw [hpolls ha.1, hderef, hs.polls]
  | pollEvents ha hstage h =>
    -- outside of `close`, `_pollable` is null just when one came before
    have hnull : s.polling.pollable = false ↔ .close ∈ pre := by
      simp [hs.close, ConsumerSystem.InClose, hstage]
    refine ⟨hsound, ?_, ?_⟩
    · rw [hmem (by simp [ha]), ← hnull, h]
      simp [EventsPolling.enter, ConsumerSystem.InClose]
    · rw [pollsAfterClose_snoc, ← hnull, ← hs.polls, h]
      simp [EventsPolling.enter, ha]
  | pollReturn ha hstage h =>
    refine ⟨hsound, ?_, ?_⟩
    · rw [hmem ha.2, hs.close, h]
      simp [ConsumerSystem.InClose, hstage]
    · rw [hpolls ha.1, h, hs.polls]
  | close ha hstage h =>
    refine ⟨hsound, ?_, ?_⟩
    · simp [ha, h, ConsumerSystem.InClose]
    · rw [hpolls (by simp [ha]), h, ← hs.polls]
      rfl
  | closeStep ha h =>
    obtain ⟨hin, hout, hderef⟩ := h.pollable hs.sound
    refine ⟨hsound, ?_, ?_⟩
    · rw [hmem ha.2, hs.close]
      exact iff_of_true (.inr hin) hout
    · rw [hpolls ha.1, hderef, hs.polls]

theorem called_run {auto : Bool} {actions : List (Action Cb)} {s : ConsumerSystem Cb}
    (hrun : run ConsumerSystem.step (start auto) actions = some s) : Called auto actions s :=
  run_invariant_history (called_step auto) (called_start auto) hrun

/-- **`_pollable`**: a null one is dereferenced exactly when the user calls `pollEvents` after
`close`; the polling thread never does. -/
theorem derefNull_iff (auto : Bool) (actions : List (Action Cb)) (s : ConsumerSystem Cb)
    (hrun : run ConsumerSystem.step (start auto) actions = some s) :
    s.polling.derefNull = true ↔
      ∃ pre post, actions = pre ++ .pollEvents :: post ∧ .close ∈ pre :=
  (called_run hrun).polls

theorem derefNull_closed : ∃ s, run ConsumerSystem.step (start true)
    (commitsThenCloses ++ [.closeStep, .pollEvents]) = some s ∧ s.polling.derefNull = true :=
  ⟨_, rfl, (derefNull_iff true (commitsThenCloses ++ [.closeStep, .pollEvents]) _ rfl).mpr
    ⟨commitsThenCloses ++ [.closeStep], [], rfl, by simp [commitsThenCloses]⟩⟩

end ModernCppKafka.Consumer.Closing
