/-
  ModernCppKafka.Clients.EventsPolling — `_pollable` and `_pollThread` of
  include/kafka/KafkaClient.h.

  With automatic events polling a client has a thread of its own that calls `_pollable->poll`
  over and over; `pollEvents` makes the same call for the user.  Closing a client asks the
  thread to stop, waits for it, and resets `_pollable`.

  Main results:
    * `Sound.threadStep` — the thread finds `_pollable` set whenever it uses it;
    * `Sound.intercepted_joined` — once it has been joined, its start and exit were intercepted,
      once each.
-/
import Mathlib.Tactic

namespace ModernCppKafka.Clients

/-! ## §1. The code. -/

/-- A call of `interceptThreadStart` or `interceptThreadExit`. -/
inductive Interception where
  | threadStart (threadName threadType : String)
  | threadExit (threadName threadType : String)
  deriving DecidableEq, Repr

/-- Where the polling thread is: before it intercepts its start, at the condition of its loop,
in `_pollable->poll`, before it intercepts its exit, or gone. -/
inductive PollThread where
  | starting
  | looping
  | polling
  | exiting
  | exited
  deriving DecidableEq, Repr

structure EventsPolling where
  /-- `_pollable` is set. -/
  pollable : Bool := false
  /-- `_pollThread`, `none` for a null pointer. -/
  pollThread : Option PollThread := none
  stopRequested : Bool := false
  intercepted : List Interception := []
  /-- `_pollable` was dereferenced when it was null. -/
  derefNull : Bool := false
  deriving DecidableEq, Repr

namespace EventsPolling

def threadStart : Interception := .threadStart "events-polling" "background"

def threadExit : Interception := .threadExit "events-polling" "background"

def startBackgroundPollingIfNecessary (isWithAutoEventsPolling : Bool) (p : EventsPolling) :
    EventsPolling :=
  { p with
    pollable := true
    pollThread := if isWithAutoEventsPolling then some .starting else p.pollThread }

/-- `_pollable->poll` is called. -/
def enter (p : EventsPolling) : EventsPolling :=
  { p with derefNull := p.derefNull || !p.pollable }

/-- The next step of the polling thread, but for the events it serves meanwhile. -/
def threadStep (p : EventsPolling) : Option EventsPolling :=
  match p.pollThread with
  | some .starting =>
    some { p with intercepted := p.intercepted ++ [threadStart], pollThread := some .looping }
  | some .looping =>
    some (if p.stopRequested then { p with pollThread := some .exiting }
      else { p.enter with pollThread := some .polling })
  -- the time of `_pollable->poll` is up
  | some .polling => some { p with pollThread := some .looping }
  | some .exiting =>
    some { p with intercepted := p.intercepted ++ [threadExit], pollThread := some .exited }
  | some .exited => none
  | none => none

/-- `_pollThread.reset()` begins: the thread's destructor requests the stop. -/
def requestStop (p : EventsPolling) : EventsPolling := { p with stopRequested := true }

/-- The thread has been joined, if there was one, and `_pollable.reset()` done. -/
def join (p : EventsPolling) : Option EventsPolling :=
  if p.pollThread = none ∨ p.pollThread = some .exited then
    some { p with pollThread := none, pollable := false }
  else none

/-- The thread leaves alone what those who stop it set. -/
theorem threadStep_keeps {p p' : EventsPolling} (h : p.threadStep = some p') :
    p'.pollable = p.pollable ∧ p'.stopRequested = p.stopRequested := by
  unfold threadStep at h
  rcases hpc : p.pollThread with _ | _ | _ | _ | _ | _ <;> simp only [hpc] at h
  case none => simp at h
  case some.exited => simp at h
  all_goals obtain rfl := Option.some.inj h
  case some.looping => split <;> exact ⟨rfl, rfl⟩
  all_goals exact ⟨rfl, rfl⟩

/-! ## §2. The invariant. -/

/-- What the interceptors were told of a thread that is at a point of its code, or joined. -/
def interceptedAt (isWithAutoEventsPolling : Bool) : Option PollThread → List Interception
  | some .starting => []
  | some .looping | some .polling | some .exiting => [threadStart]
  | some .exited => [threadStart, threadExit]
  | none => if isWithAutoEventsPolling then [threadStart, threadExit] else []

/-- There is a thread exactly while `_pollable` is set, with automatic polling. -/
structure Sound (auto : Bool) (p : EventsPolling) : Prop where
  thread : p.pollThread.isSome = (auto && p.pollable)
  intercepted : p.intercepted = interceptedAt auto p.pollThread

theorem sound_start (auto : Bool) : Sound auto (startBackgroundPollingIfNecessary auto {}) := by
  cases auto with
  | true => exact ⟨rfl, rfl⟩
  | false => exact ⟨rfl, rfl⟩

theorem Sound.enter {auto : Bool} {p : EventsPolling} (h : p.Sound auto) : p.enter.Sound auto :=
  ⟨h.thread, h.intercepted⟩

theorem Sound.requestStop {auto : Bool} {p : EventsPolling} (h : p.Sound auto) :
    p.requestStop.Sound auto := ⟨h.thread, h.intercepted⟩

/-- **The thread's own calls are safe**: whatever step it takes, it dereferences no null. -/
theorem Sound.threadStep {auto : Bool} {p p' : EventsPolling} (h : p.Sound auto)
    (hstep : p.threadStep = some p') :
    p'.Sound auto ∧ p'.derefNull = p.derefNull := by
  obtain ⟨hthread, hint⟩ := h
  unfold EventsPolling.threadStep at hstep
  rcases hpc : p.pollThread with _ | _ | _ | _ | _ | _ <;> simp only [hpc] at hstep hthread hint
  · simp at hstep
  · obtain rfl := Option.some.inj hstep
    exact ⟨⟨hthread, by simp [hint, interceptedAt]⟩, rfl⟩
  · -- the thread is there, so `_pollable` is set
    have hset : p.pollable = true := by
      simp only [Option.isSome_some] at hthread
      simp_all
    obtain rfl := Option.some.inj hstep
    split
    · exact ⟨⟨hthread, hint⟩, rfl⟩
    · exact ⟨⟨hthread, hint⟩, by simp [EventsPolling.enter, hset]⟩
  · obtain rfl := Option.some.inj hstep
    exact ⟨⟨hthread, hint⟩, rfl⟩
  · obtain rfl := Option.some.inj hstep
    exact ⟨⟨hthread, by simp [hint, interceptedAt]⟩, rfl⟩
  · simp at hstep

theorem Sound.join {auto : Bool} {p p' : EventsPolling} (h : p.Sound auto)
    (hjoin : p.join = some p') :
    p'.Sound auto ∧ p'.derefNull = p.derefNull ∧ p'.pollable = false := by
  unfold EventsPolling.join at hjoin
  split at hjoin
  next hdone =>
    obtain rfl := Option.some.inj hjoin
    refine ⟨⟨by simp, ?_⟩, rfl, rfl⟩
    show p.intercepted = interceptedAt auto none
    obtain ⟨hthread, hint⟩ := h
    cases hdone with
    | inl hnone => rw [hint, hnone]
    | inr hexited =>
      have hauto : auto = true := by
        simp only [hexited, Option.isSome_some] at hthread
        simp_all
      rw [hint, hexited, hauto]
      rfl
  next => simp at hjoin

/-- Without `_pollable`, the thread has come and gone. -/
theorem Sound.intercepted_joined {auto : Bool} {p : EventsPolling} (h : p.Sound auto)
    (hreset : p.pollable = false) :
    p.intercepted = if auto then [threadStart, threadExit] else [] := by
  have hnone : p.pollThread = none := by
    have hthread := h.thread
    rw [hreset, Bool.and_false] at hthread
    simpa using hthread
  rw [h.intercepted, hnone]
  rfl

theorem Sound.intercepted_prefix {auto : Bool} {p : EventsPolling} (h : p.Sound auto) :
    p.intercepted <+: (if auto then [threadStart, threadExit] else []) := by
  obtain ⟨hthread, hint⟩ := h
  rw [hint]
  cases auto with
  | true => rcases p.pollThread with _ | _ | _ | _ | _ | _ <;> simp [interceptedAt]
  | false =>
    -- there is no thread
    have hnone : p.pollThread = none := by simpa using hthread
    simp [hnone, interceptedAt]

/-! ## §3. The way to the join. -/

/-- Steps the thread takes at most, once it was requested to stop. -/
def threadRank : Option PollThread → ℕ
  | some .starting | some .polling => 3
  | some .looping => 2
  | some .exiting => 1
  | some .exited | none => 0

/-- A thread requested to stop gets closer to its end. -/
theorem threadRank_threadStep {p p' : EventsPolling} (hstop : p.stopRequested = true)
    (hstep : p.threadStep = some p') :
    threadRank p'.pollThread < threadRank p.pollThread := by
  unfold threadStep at hstep
  rcases hpc : p.pollThread with _ | _ | _ | _ | _ | _ <;> simp only [hpc] at hstep
  case none => simp at hstep
  case some.exited => simp at hstep
  all_goals
    obtain rfl := Option.some.inj hstep
    simp [hstop, threadRank]

/-- A thread that cannot be joined yet can take a step. -/
theorem threadStep_of_join_eq_none {p : EventsPolling} (h : p.join = none) :
    ∃ p', p.threadStep = some p' := by
  unfold join at h
  unfold threadStep
  rcases hpc : p.pollThread with _ | _ | _ | _ | _ | _ <;> simp_all

end EventsPolling

end ModernCppKafka.Clients
