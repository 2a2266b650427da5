/-
  ModernCppKafka.Producer.Deadlock — who waits for whom in KafkaRecoverableProducer.h.

  The application thread waits for the mutex, for the poll thread to end, or for the callback of
  its message; the poll thread waits for the mutex; and both wait for librdkafka.  `syncSend`
  waits for its callback inside the lock, and the poll thread, which runs the callback, waits for
  the lock once it has met a fatal error: each then waits for the other.

  Main results:
    * `deadlocked_iff`    — that is the only deadlock;
    * `deadlock_free_iff` — which runs keep out of it.
-/
import ModernCppKafka.Lib.Deadlock
import ModernCppKafka.Producer.Recoverable

namespace ModernCppKafka.Producer

open ModernCppKafka.Lib.Run
open ModernCppKafka.Lib.Deadlock

/-! ## §1. Waiting for librdkafka. -/

namespace Handle

/-- A flush can go on: there is a report to serve, or nothing is in flight. -/
def Ready (p : Handle) : Prop := p.reports ≠ [] ∨ p.inflight = []

/-- When a flush cannot go on, the next message that librdkafka resolves lets it. -/
theorem resolve_of_not_ready {p : Handle} (h : ¬ p.Ready) :
    ∃ m p', p.resolve m = some p' ∧ p'.Ready := by
  unfold Ready at h
  push Not at h
  obtain ⟨m, rest, hm⟩ := List.exists_cons_of_ne_nil h.2
  refine ⟨m, { p with inflight := p.inflight.erase m, reports := p.reports ++ [m] }, ?_, ?_⟩
  · simp [resolve, hm]
  · exact .inl (by simp)

end Handle

theorem flushStep_enabled (infinite : Bool) {p : Handle} (h : p.Ready) :
    ∃ choice result, flushStep infinite p choice = some result := by
  rcases hrep : p.reports with _ | ⟨m, reports⟩
  · -- nothing to serve, so nothing is in flight either: the flush returns
    have hdrained : p.Drained := ⟨h.resolve_left (by simp [hrep]), hrep⟩
    exact ⟨.go, _, if_pos hdrained⟩
  · exact ⟨.serveReport, _, by simp only [flushStep, Handle.serve, hrep]; rfl⟩

theorem closeStep_enabled (infinite : Bool) (stage : CloseStage) {p : Handle} (h : p.Ready) :
    ∃ choice result, closeStep infinite stage choice p = some result := by
  cases stage with
  | flushing =>
    obtain ⟨choice, ⟨result, p'⟩, hf⟩ := flushStep_enabled infinite h
    refine ⟨choice, ?_⟩
    unfold closeStep
    rcases result with _ | _ | _ <;> exact ⟨_, by simp only [hf]; rfl⟩
  | purging => exact ⟨.go, (some .polling, p.purge), rfl⟩
  | polling => exact ⟨.go, (none, p.pollAll), rfl⟩

namespace KafkaRecoverableProducer

/-! ## §2. Which steps are enabled. -/

variable {s s' : KafkaRecoverableProducer}

/-- The application thread waits for one of three: the end of the poll thread, the mutex, and
the callback of its message. -/
theorem appStep_enabled (hr : s.handle.Ready) (hidle : s.app ≠ .idle) (hclosed : s.app ≠ .closed)
    (hjoin : ∀ infinite, s.app = .joining infinite → s.poll = .exited)
    (hlock : ∀ op, s.app = .locking op → s.mutex = none)
    (hwait : ∀ m, s.app = .syncWaiting m → m ∈ s.handle.invoked) :
    ∃ choice s', s.appStep choice = some s' := by
  cases hpc : s.app with
  | idle => exact absurd hpc hidle
  | joining infinite => exact ⟨.go, _, by simp only [appStep, hpc]; exact if_pos (hjoin _ hpc)⟩
  | locking op => exact ⟨.go, _, by simp only [appStep, hpc]; exact if_pos (hlock _ hpc)⟩
  | syncWaiting m => exact ⟨.go, _, by simp only [appStep, hpc]; exact if_pos (hwait _ hpc)⟩
  | flushing infinite =>
    obtain ⟨choice, ⟨result, p⟩, hf⟩ := flushStep_enabled infinite hr
    cases result with
    | none => exact ⟨choice, _, by simp only [appStep, hpc, hf]; rfl⟩
    | some result => exact ⟨choice, _, by simp only [appStep, hpc, hf]; rfl⟩
  | closing infinite stage =>
    obtain ⟨choice, ⟨result, p⟩, hcs⟩ := closeStep_enabled infinite stage hr
    cases result with
    | none => exact ⟨choice, _, by simp only [appStep, hpc, hcs]; rfl⟩
    | some stage' => exact ⟨choice, _, by simp only [appStep, hpc, hcs]; rfl⟩
  | closed => exact absurd hpc hclosed
  | _ => exact ⟨.go, _, by simp only [appStep, hpc]; rfl⟩

/-- The poll thread waits for the mutex only. -/
theorem pollStep_enabled (hr : s.handle.Ready) (hexit : s.poll ≠ .exited)
    (hlock : s.poll = .locking → s.mutex = none) : ∃ choice s', s.pollStep choice = some s' := by
  cases hpc : s.poll with
  | locking => exact ⟨.go, _, by simp only [pollStep, hpc]; exact if_pos (hlock hpc)⟩
  | closing stage =>
    obtain ⟨choice, ⟨result, p⟩, hcs⟩ := closeStep_enabled true stage hr
    cases result with
    | none => exact ⟨choice, _, by simp only [pollStep, hpc, hcs]; rfl⟩
    | some stage' => exact ⟨choice, _, by simp only [pollStep, hpc, hcs]; rfl⟩
  | exited => exact absurd hpc hexit
  | _ => exact ⟨.go, _, by simp only [pollStep, hpc]; rfl⟩

/-! ## §3. The deadlock. -/

/-- An operation has begun and not returned. -/
def Unfinished (s : KafkaRecoverableProducer) : Prop := s.app ≠ .idle ∧ s.app ≠ .closed

/-- An operation is unfinished, and neither thread takes another step, whatever librdkafka
does. -/
def Deadlocked (s : KafkaRecoverableProducer) : Prop := s.Unfinished ∧ Stuck rkStep threadStep s

/-- `syncSend` waits for a callback that has not run. -/
def SyncWaits (s : KafkaRecoverableProducer) : Prop :=
  ∃ m, s.app = .syncWaiting m ∧ m ∉ s.handle.invoked

/-- `syncSend` holds the mutex as it waits, and the poll thread waits for the mutex. -/
def SyncBlocked (s : KafkaRecoverableProducer) : Prop :=
  s.SyncWaits ∧ s.mutex = some .app ∧ s.poll = .locking

/-- Resolving messages and raising errors runs no callback. -/
theorem rkStep_frame {e : RkEvent} (h : s.rkStep e = some s') :
    s'.app = s.app ∧ s'.poll = s.poll ∧ s'.mutex = s.mutex ∧
      s'.handle.invoked = s.handle.invoked := by
  rcases rkStep_cases h with ⟨m, p, hp, rfl⟩ | rfl
  · obtain ⟨-, rfl⟩ := Handle.resolve_eq_some.mp hp
    exact ⟨rfl, rfl, rfl, rfl⟩
  · exact ⟨rfl, rfl, rfl, rfl⟩

theorem syncBlocked_rk (s : KafkaRecoverableProducer) (e : RkEvent)
    (s' : KafkaRecoverableProducer) (hb : s.SyncBlocked) (h : s.rkStep e = some s') :
    s'.SyncBlocked := by
  obtain ⟨happ, hpoll, hmutex, hinv⟩ := rkStep_frame h
  obtain ⟨⟨m, hpc, hm⟩, hheld, hlocking⟩ := hb
  exact ⟨⟨m, happ.trans hpc, hinv ▸ hm⟩, hmutex.trans hheld, hpoll.trans hlocking⟩

theorem threadStep_syncBlocked (s : KafkaRecoverableProducer) (a : ThreadAction)
    (hb : s.SyncBlocked) : s.threadStep a = none := by
  obtain ⟨⟨m, hpc, hm⟩, hheld, hlocking⟩ := hb
  cases a with
  | begin op => simp [threadStep, begin, hpc]
  | app choice => cases choice <;> simp [threadStep, appStep, hpc, hm]
  | poll choice => cases choice <;> simp [threadStep, pollStep, hlocking, hheld]

/-- Unless `syncSend` and the poll thread wait for each other, a thread can go on once librdkafka
has reports. -/
theorem threadStep_enabled (hc : s.Coherent) (hr : s.handle.Ready) (hu : s.Unfinished)
    (hb : ¬ s.SyncBlocked) : ∃ a s', s.threadStep a = some s' := by
  have app_goes (h : ∃ choice s', s.appStep choice = some s') :
      ∃ a s', s.threadStep a = some s' := by
    obtain ⟨choice, s', h⟩ := h
    exact ⟨.app choice, s', h⟩
  have poll_goes (h : ∃ choice s', s.pollStep choice = some s') :
      ∃ a s', s.threadStep a = some s' := by
    obtain ⟨choice, s', h⟩ := h
    exact ⟨.poll choice, s', h⟩
  cases hpc : s.app with
  | joining infinite =>
    by_cases hexit : s.poll = .exited
    · exact app_goes (appStep_enabled hr hu.1 hu.2 (fun _ _ => hexit) (by simp [hpc])
        (by simp [hpc]))
    · refine poll_goes (pollStep_enabled hr hexit fun hlocking => ?_)
      -- neither thread is inside the lock
      have happ : s.mutex ≠ some .app := fun h => by
        simpa [hpc, AppPc.holds] using hc.appHolds.mpr h
      have hpoll : s.mutex ≠ some .poll := fun h => by
        simpa [hlocking, PollPc.holds] using hc.pollHolds.mpr h
      rcases hm : s.mutex with _ | _ | _ <;> simp_all
  | locking op =>
    rcases hm : s.mutex with _ | _ | _
    · exact app_goes (appStep_enabled hr hu.1 hu.2 (by simp [hpc]) (fun _ _ => hm)
        (by simp [hpc]))
    · have happ : s.app.holds = true := hc.appHolds.mpr hm
      simp [hpc, AppPc.holds] at happ
    · -- the poll thread is inside the lock, so it waits for librdkafka at most
      have hpoll : s.poll.holds = true := hc.pollHolds.mpr hm
      refine poll_goes (pollStep_enabled hr ?_ ?_)
      · rintro hexit
        simp [hexit, PollPc.holds] at hpoll
      · intro hlocking
        simp [hlocking, PollPc.holds] at hpoll
  | syncWaiting m =>
    by_cases hm : m ∈ s.handle.invoked
    · refine app_goes (appStep_enabled hr hu.1 hu.2 (by simp [hpc]) (by simp [hpc]) ?_)
      intro m' hpc'
      obtain rfl : m = m' := by simpa [hpc] using hpc'
      exact hm
    · refine poll_goes (pollStep_enabled hr ?_ ?_)
      · intro hexit
        -- no stop is requested while an operation other than `close` runs
        have hstop : s.stop = true := hc.exited hexit
        simp [hc.stop_eq, hpc, AppPc.stopping, AppPc.joined] at hstop
      · intro hlocking
        have hheld : s.mutex = some .app := hc.appHolds.mp (by simp [hpc, AppPc.holds])
        exact absurd ⟨⟨m, hpc, hm⟩, hheld, hlocking⟩ hb
  | _ =>
    exact app_goes (appStep_enabled hr hu.1 hu.2 (by simp [hpc]) (by simp [hpc]) (by simp [hpc]))

/-- **The only deadlock** is that of `syncSend` and the poll thread. -/
theorem deadlocked_iff (hc : s.Coherent) : s.Deadlocked ↔ s.SyncBlocked := by
  constructor
  · rintro ⟨hu, hstuck⟩
    by_contra hb
    by_cases hr : s.handle.Ready
    · obtain ⟨a, s', h⟩ := threadStep_enabled hc hr hu hb
      exact not_stuck_of_step h hstuck
    · -- librdkafka resolves a message, and a thread serves its report
      obtain ⟨m, p, hp, hready⟩ := Handle.resolve_of_not_ready hr
      have hrk : s.rkStep (.resolve m) = some { s with handle := p } := by simp [rkStep, hp]
      have hb' : ¬ SyncBlocked { s with handle := p } := by
        rintro ⟨⟨m', hpc, hm'⟩, hheld, hlocking⟩
        obtain ⟨-, -, -, hinv⟩ := rkStep_frame hrk
        exact hb ⟨⟨m', hpc, hinv ▸ hm'⟩, hheld, hlocking⟩
      obtain ⟨a, s', h⟩ := threadStep_enabled (coherent_rk hc hrk) hready hu hb'
      exact not_stuck_of_env hrk (not_stuck_of_step h) hstuck
  · intro hb
    refine ⟨?_, stuck_of_blocked syncBlocked_rk threadStep_syncBlocked hb⟩
    obtain ⟨⟨m, hpc, -⟩, -, -⟩ := hb
    exact ⟨by simp [hpc], by simp [hpc]⟩

/-! ## §4. Runs that keep out of the deadlock. -/

/-- The steps that close the circle: the poll thread goes for the mutex while `syncSend` waits,
or the message of a `syncSend` is accepted while the poll thread waits for the mutex. -/
def Entangles (s : KafkaRecoverableProducer) : Action → Prop
  | .thread (.poll .go) => s.poll = .resetFatal ∧ s.SyncWaits
  | .thread (.app .go) => s.app = .syncSending ∧ s.poll = .locking
  | _ => False

/-- Custody says that the callback of a new message has not run. -/
theorem Sound.next_not_invoked (hs : s.Sound) : s.handle.nextId ∉ s.handle.invoked := by
  intro hin
  refine hs.handle.next_new (List.mem_append_left _ ?_)
  exact hs.handle.ledger.mem_taken hin

theorem app_entangles {choice : Choice} (hc : s.Coherent) (hs : s.Sound)
    (h : s.appStep choice = some s') :
    s'.SyncBlocked ↔ s.Entangles (.thread (.app choice)) := by
  constructor
  · rintro ⟨⟨m, hpc', -⟩, -, hlocking⟩
    -- only `send` returning inside `syncSend` leads to the wait
    have hsend : s.app = .syncSending ∧ s.poll = .locking := by
      cases appStep_move h with
      | syncAccept hpc => exact ⟨hpc, hlocking⟩
      | lock op hpc hfree => cases op <;> simp [Op.enter] at hpc'
      | flushOn infinite choice p hpc hserve => simp [hpc] at hpc'
      | _ => simp at hpc'
    cases choice with
    | go => exact hsend
    | reject =>
      obtain rfl : { s with handle := s.handle.reject, app := .unlocking } = s' := by
        simpa [appStep, hsend.1] using h
      simp at hpc'
    | _ => simp [appStep, hsend.1] at h
  · intro hen
    cases choice with
    | go =>
      obtain ⟨hpc, hlocking⟩ := hen
      obtain rfl : { s with handle := s.handle.accept, app := .syncWaiting s.handle.nextId } = s' :=
        by simpa [appStep, hpc] using h
      have hheld : s.mutex = some .app := hc.appHolds.mp (by simp [hpc, AppPc.holds])
      exact ⟨⟨s.handle.nextId, rfl, hs.next_not_invoked⟩, hheld, hlocking⟩
    | _ => exact hen.elim

theorem poll_entangles {choice : Choice} (hc : s.Coherent) (h : s.pollStep choice = some s') :
    s'.SyncBlocked ↔ s.Entangles (.thread (.poll choice)) := by
  constructor
  · rintro ⟨⟨m, hpc, hm⟩, -, hlocking⟩
    have hreset : s.poll = .resetFatal ∧ s.SyncWaits := by
      cases pollStep_move h with
      | reset hpc' => exact ⟨hpc', m, hpc, hm⟩
      | serve choice p hpc' hserve => simp [hpc'] at hlocking
      | _ => simp at hlocking
    cases choice with
    | go => exact hreset
    | _ => simp [pollStep, hreset.1] at h
  · intro hen
    cases choice with
    | go =>
      obtain ⟨hpc', m, hpc, hm⟩ := hen
      obtain rfl : { s with
          handle := { s.handle with fatalError := false }, poll := .locking } = s' := by
        simpa [pollStep, hpc'] using h
      have hheld : s.mutex = some .app := hc.appHolds.mp (by simp [hpc, AppPc.holds])
      exact ⟨⟨m, hpc, hm⟩, hheld, rfl⟩
    | _ => exact hen.elim

/-- One step enters the deadlock exactly when it closes the circle. -/
theorem step_entangles {a : Action} (hc : s.Coherent) (hs : s.Sound) (hb : ¬ s.SyncBlocked)
    (h : s.step a = some s') : s'.SyncBlocked ↔ s.Entangles a := by
  match a with
  | .thread (.begin op) =>
    refine iff_of_false ?_ id
    rintro ⟨⟨m, hpc, -⟩, -, -⟩
    obtain ⟨-, ⟨infinite, -, rfl⟩ | ⟨-, rfl⟩⟩ := begin_cases h
    · simp at hpc
    · simp at hpc
  | .thread (.app choice) => exact app_entangles hc hs h
  | .thread (.poll choice) => exact poll_entangles hc h
  | .rk e =>
    refine iff_of_false ?_ id
    rintro ⟨⟨m, hpc, hm⟩, hheld, hlocking⟩
    obtain ⟨happ, hpoll, hmutex, hinv⟩ := rkStep_frame h
    exact hb ⟨⟨m, happ ▸ hpc, hinv ▸ hm⟩, hmutex ▸ hheld, hpoll ▸ hlocking⟩

/-- Nothing holds up a step that closes the circle. -/
theorem step_of_entangles {a : Action} (h : s.Entangles a) : ∃ s', s.step a = some s' := by
  match a, h with
  | .thread (.poll .go), h => exact ⟨_, by simp only [step, threadStep, pollStep, h.1]; rfl⟩
  | .thread (.app .go), h => exact ⟨_, by simp only [step, threadStep, appStep, h.1]; rfl⟩

/-- **When a run keeps out of deadlocks**: exactly when in none of its steps the poll thread goes
for the mutex while a `syncSend` waits for its callback, or a `syncSend`'s message is accepted
while the poll thread waits for the mutex. -/
theorem deadlock_free_iff (actions : List Action) :
    (∀ pre, pre <+: actions → ∀ s, run step {} pre = some s →
      ¬ s.Deadlocked ∧ ¬ s.SyncBlocked) ↔
    Along step (fun s a => ¬ s.Entangles a) {} actions := by
  -- a step of a good state is to a good state exactly when it does not close the circle
  have hok (s : KafkaRecoverableProducer) (a : Action) (hs : s.Coherent ∧ s.Sound)
      (hb : ¬ s.SyncBlocked) :
      (∀ s', s.step a = some s' → ¬ s'.SyncBlocked) ↔ ¬ s.Entangles a := by
    constructor
    · intro h hen
      obtain ⟨s', h'⟩ := step_of_entangles hen
      exact h s' h' ((step_entangles hs.1 hs.2 hb h').mpr hen)
    · intro hen s' h' hb'
      exact hen ((step_entangles hs.1 hs.2 hb h').mp hb')
  have hnew : ¬ SyncBlocked {} := by
    rintro ⟨-, hheld, -⟩
    simp at hheld
  rw [← avoids_iff_along sound_step hok ⟨coherent_new, sound_new⟩ hnew]
  constructor
  · intro h pre hpre s hrun
    exact (h pre hpre s hrun).2
  · intro h pre hpre s hrun
    have hb : ¬ s.SyncBlocked := h pre hpre s hrun
    have hc : s.Coherent := run_invariant coherent_step coherent_new hrun
    exact ⟨fun hd => hb ((deadlocked_iff hc).mp hd), hb⟩

/-- A fatal error comes as a `syncSend` waits for its callback. -/
def syncSendMeetsRecovery : List Action :=
  [.thread (.begin .syncSend), .thread (.app .go), .thread (.app .go), .rk .raiseFatal,
    .thread (.poll .go), .thread (.poll .serveError), .thread (.poll .go), .thread (.poll .go),
    .thread (.poll .go), .thread (.poll .go), .thread (.poll .go)]

/-- The poll thread purges the message, whose report it would serve, and waits for the mutex
that `syncSend` holds. -/
theorem syncSend_deadlocks :
    ∃ s, run step {} syncSendMeetsRecovery = some s ∧ s.Deadlocked ∧ s.SyncBlocked := by
  obtain ⟨s, hrun, happ, hinv, hheld, hlocking⟩ :
      ∃ s, run step {} syncSendMeetsRecovery = some s ∧ s.app = .syncWaiting 0 ∧
        s.handle.invoked = [] ∧ s.mutex = some .app ∧ s.poll = .locking :=
    ⟨_, rfl, rfl, rfl, rfl, rfl⟩
  have hc : s.Coherent := run_invariant coherent_step coherent_new hrun
  have hb : s.SyncBlocked := ⟨⟨0, happ, by simp [hinv]⟩, hheld, hlocking⟩
  exact ⟨s, hrun, (deadlocked_iff hc).mpr hb, hb⟩

end KafkaRecoverableProducer

end ModernCppKafka.Producer
