/-
  ModernCppKafka.Queue.Monotone — does the committed position move backwards?

  `waitOffset` compares an offset with the last one still in the deque.  When the deque runs
  empty it has nothing to compare with, so a record delivered again is accepted although a later
  position was returned already (`redelivery_moves_backwards`).

  The values returned by `popOffsetToCommit` are kept beside the queue and its history
  (`callLogged`).  In runs whose accepted offsets are at or above `_toCommit` they increase
  strictly, and everything waiting is at or above the last of them (`run_neverBackwards`); an
  accepted offset below `_toCommit` undoes that if `popOffsetToCommit` is called at once.
-/
import ModernCppKafka.Queue.AckOrder

namespace ModernCppKafka.Queue

open ModernCppKafka.Lib.Frontier
open ModernCppKafka.Lib.Run
open UnorderedOffsetCommitQueue

/-! ## §1. The values returned. -/

/-- The queue, its history, and the values `popOffsetToCommit` returned, in order. -/
structure Logged where
  queue : UnorderedOffsetCommitQueue
  history : History
  popped : List Offset
  deriving DecidableEq

/-- One call, with the value it returns written down. -/
def callLogged (s : Logged) (c : Call) : Option Logged :=
  (trace (s.queue, s.history) c).map fun (q, h) =>
    { queue := q, history := h
      popped := match c with
        | .popOffsetToCommit => s.popped ++ s.queue.popOffsetToCommit.2.toList
        | _ => s.popped }

def Logged.start (info : String) : Logged := ⟨fresh info, {}, []⟩

/-- The values returned increase strictly, and what still waits is not below the last one. -/
structure NeverBackwards (s : Logged) : Prop where
  increasing : s.popped.Pairwise (· < ·)
  waiting_ge : ∀ v ∈ s.popped.getLast?, ∀ e ∈ s.queue.offsetsReceived, v ≤ e

/-- An acknowledgement names an accepted offset that has none yet. -/
def AcksOpen (s : Logged) : Call → Prop
  | .ackOffset o => ⟨o, false⟩ ∈ s.history.accepted
  | _ => True

/-- An accepted offset is at or above `_toCommit` (and leaves room for `+ 1`). -/
def WaitsAbove (s : Logged) : Call → Prop
  | .waitOffset o => s.queue.accepts o = true → s.queue.toCommit ≤ o ∧ o < Int64.maxValue
  | _ => True

instance acksOpenDecidable (s : Logged) : ∀ c : Call, Decidable (AcksOpen s c)
  | .ackOffset o => inferInstanceAs (Decidable (⟨o, false⟩ ∈ s.history.accepted))
  | .waitOffset _ | .popOffsetToCommit | .lastPoppedOffset => .isTrue trivial

instance waitsAboveDecidable (s : Logged) : ∀ c : Call, Decidable (WaitsAbove s c)
  | .waitOffset o => inferInstanceAs (Decidable
      (s.queue.accepts o = true → s.queue.toCommit ≤ o ∧ o < Int64.maxValue))
  | .ackOffset _ | .popOffsetToCommit | .lastPoppedOffset => .isTrue trivial

/-- What is waiting is at or above `_toCommit`, and what was returned at or below it. -/
structure Forward (s : Logged) : Prop where
  tracked : ∃ gone here, Tracked s.queue s.history gone here
  waiting_ge : ∀ e ∈ s.queue.offsetsReceived, s.queue.toCommit ≤ e
  committed_le : s.queue.committed ≤ s.queue.toCommit
  committed_eq : s.queue.committed = s.popped.getLast?.getD INVALID_OFFSET
  increasing : s.popped.Pairwise (· < ·)

theorem Forward.neverBackwards {s : Logged} (f : Forward s) : NeverBackwards s := by
  refine ⟨f.increasing, fun v hv e he => ?_⟩
  have hcommitted : s.queue.committed = v := by
    rw [f.committed_eq, show s.popped.getLast? = some v from hv]
    rfl
  calc v = s.queue.committed := hcommitted.symm
    _ ≤ s.queue.toCommit := f.committed_le
    _ ≤ e := f.waiting_ge e he

theorem forward_start (info : String) : Forward (Logged.start info) :=
  ⟨⟨[], [], tracked_start info⟩, by simp [Logged.start, fresh], le_refl _, rfl, .nil⟩

/-- A waiting offset leaves room for `+ 1`. -/
theorem Tracked.lt_maxValue {q : UnorderedOffsetCommitQueue} {h : History}
    {gone here : List Occurrence} (t : Tracked q h gone here) {e : Offset}
    (he : e ∈ q.offsetsReceived) : e < Int64.maxValue := by
  rw [t.received_eq] at he
  obtain ⟨x, hx, rfl⟩ := List.mem_map.mp he
  refine (t.bounded x ?_).2
  rw [t.split]
  exact List.mem_append_right _ hx

/-! ## §2. One call. -/

/-- Retiring offsets moves `_toCommit` forward, to no more than what is left. -/
theorem ackOffset_forward {q q' : UnorderedOffsetCommitQueue} (hq : WellFormed q)
    (hge : ∀ e ∈ q.offsetsReceived, q.toCommit ≤ e)
    (hmax : ∀ e ∈ q.offsetsReceived, e < Int64.maxValue) {o : Offset}
    (h : q.ackOffset o = some q') :
    q.toCommit ≤ q'.toCommit ∧ ∀ e ∈ q'.offsetsReceived, q'.toCommit ≤ e := by
  obtain ⟨retired, d, hto, -, -⟩ := ackOffset_spec hq h
  rw [hto]
  cases hlast : retired.getLast? with
  | none =>
    refine ⟨le_refl _, fun e he => hge e ?_⟩
    rw [d.split]
    exact List.mem_append_right _ he
  | some b =>
    have hb : b ∈ q.offsetsReceived := by
      rw [d.split]
      exact List.mem_append_left _ (List.mem_of_getLast? hlast)
    have hnext : (b + 1).toInt = b.toInt + 1 := Offset.toInt_add_one (hmax b hb)
    have hsplit := hq.increasing
    rw [d.split, List.pairwise_append] at hsplit
    -- `b + 1` is above `_toCommit`, and no offset lies between `b` and what is left
    refine ⟨Int64.le_iff_toInt_le.mpr ?_, fun e he => Int64.le_iff_toInt_le.mpr ?_⟩
    · have := Int64.le_iff_toInt_le.mp (hge b hb)
      simp only [commitAfter]
      omega
    · have := Int64.lt_iff_toInt_lt.mp (hsplit.2.2 b (List.mem_of_getLast? hlast) e he)
      simp only [commitAfter]
      omega

theorem callLogged_wait (s : Logged) (o : Offset) : callLogged s (.waitOffset o)
    = some ⟨s.queue.waitOffset o, s.history.record s.queue (.waitOffset o), s.popped⟩ := rfl

theorem callLogged_pop (s : Logged) : callLogged s .popOffsetToCommit
    = some ⟨s.queue.popOffsetToCommit.1, s.history.record s.queue .popOffsetToCommit,
        s.popped ++ s.queue.popOffsetToCommit.2.toList⟩ := rfl

theorem Forward.wait {s : Logged} (f : Forward s) {o : Offset}
    (hok : WaitsAbove s (.waitOffset o)) :
    ∃ s', callLogged s (.waitOffset o) = some s' ∧ Forward s' := by
  obtain ⟨gone, here, t⟩ := f.tracked
  obtain ⟨here', t'⟩ := t.wait fun hacc => (hok hacc).2
  refine ⟨_, callLogged_wait s o, ?_⟩
  by_cases hacc : s.queue.accepts o = true
  · have hwait : s.queue.waitOffset o
        = { s.queue with offsetsReceived := s.queue.offsetsReceived ++ [o] } := if_pos hacc
    rw [hwait] at t' ⊢
    refine ⟨⟨gone, here', t'⟩, fun e he => ?_, f.committed_le, f.committed_eq, f.increasing⟩
    rcases List.mem_append.mp he with he | he
    · exact f.waiting_ge e he
    · -- the offset just accepted, which `hok` is about
      obtain rfl : e = o := by simpa using he
      exact (hok hacc).1
  · have hwait : s.queue.waitOffset o
        = { s.queue with errors := s.queue.errors ++ [.invalidWait o] } := if_neg hacc
    rw [hwait] at t' ⊢
    exact ⟨⟨gone, here', t'⟩, f.waiting_ge, f.committed_le, f.committed_eq, f.increasing⟩

theorem Forward.ack {s : Logged} (f : Forward s) {o : Offset}
    (hok : AcksOpen s (.ackOffset o)) :
    ∃ s', callLogged s (.ackOffset o) = some s' ∧ Forward s' := by
  obtain ⟨gone, here, t⟩ := f.tracked
  obtain ⟨q', hq', gone', here', t'⟩ := t.ack hok
  obtain ⟨hforth, hge⟩ := ackOffset_forward t.wellFormed f.waiting_ge
    (fun e he => t.lt_maxValue he) hq'
  obtain ⟨-, -, -, hc, -⟩ := ackOffset_spec t.wellFormed hq'
  refine ⟨⟨q', s.history.record s.queue (.ackOffset o), s.popped⟩, ?_,
    ⟨gone', here', t'⟩, hge, ?_, ?_, f.increasing⟩
  · simp [callLogged, trace, step, hq']
  · rw [hc]
    exact f.committed_le.trans hforth
  · rw [hc]
    exact f.committed_eq

/-- After a `popOffsetToCommit`, `_toCommit` is `_committed`. -/
theorem popOffsetToCommit_committed (q : UnorderedOffsetCommitQueue) :
    q.popOffsetToCommit.1 = { q with committed := q.toCommit } := by
  unfold popOffsetToCommit
  split
  next => rfl
  next heq =>
    obtain ⟨received, heap, toCommit, committed, info, errors⟩ := q
    obtain rfl : committed = toCommit := not_not.mp heq
    rfl

/-- The last of the values returned so far is then `_toCommit`. -/
theorem popOffsetToCommit_last {q : UnorderedOffsetCommitQueue} {popped : List Offset}
    (hc : q.committed = popped.getLast?.getD INVALID_OFFSET) :
    (popped ++ q.popOffsetToCommit.2.toList).getLast?.getD INVALID_OFFSET = q.toCommit := by
  unfold popOffsetToCommit
  split
  next => simp
  next heq => simpa [← not_not.mp heq] using hc.symm

theorem Forward.pop {s : Logged} (f : Forward s) :
    ∃ s', callLogged s .popOffsetToCommit = some s' ∧ Forward s' := by
  obtain ⟨gone, here, t⟩ := f.tracked
  have t' := t.pop
  refine ⟨_, callLogged_pop s, ?_⟩
  rw [popOffsetToCommit_committed] at t' ⊢
  refine ⟨⟨gone, here, t'⟩, f.waiting_ge, le_refl _, (popOffsetToCommit_last f.committed_eq).symm,
    ?_⟩
  unfold popOffsetToCommit
  by_cases hne : s.queue.committed ≠ s.queue.toCommit
  · -- all values returned so far are at most `_committed`, which is below `_toCommit`
    have hlt : s.queue.committed < s.queue.toCommit := lt_of_le_of_ne f.committed_le hne
    rw [if_pos hne]
    refine List.pairwise_append.mpr ⟨f.increasing, List.pairwise_singleton _ _, ?_⟩
    intro v hv w hw
    obtain rfl : w = s.queue.toCommit := by simpa using hw
    obtain ⟨b, hb⟩ : ∃ b, s.popped.getLast? = some b :=
      Option.ne_none_iff_exists'.mp fun hnone => by
        rw [List.getLast?_eq_none_iff.mp hnone] at hv
        simp at hv
    have hcommitted : s.queue.committed = b := by
      rw [f.committed_eq, hb]
      rfl
    exact (le_getLast f.increasing hv hb).trans_lt (hcommitted ▸ hlt)
  · rw [if_neg hne]
    simpa using f.increasing

/-- **Each call goes forward**, when an accepted offset is at or above `_toCommit`. -/
theorem callLogged_forward (s : Logged) (c : Call) (f : Forward s)
    (hok : AcksOpen s c ∧ WaitsAbove s c) : ∃ s', callLogged s c = some s' ∧ Forward s' := by
  cases c with
  | waitOffset o => exact f.wait hok.2
  | ackOffset o => exact f.ack hok.1
  | popOffsetToCommit => exact f.pop
  | lastPoppedOffset => exact ⟨s, rfl, f⟩

/-- An accepted offset below `_toCommit` is overtaken by a `popOffsetToCommit` right after it; an
`ackOffset` in between may lower `_toCommit` again. -/
theorem Forward.overtaken {s : Logged} (f : Forward s) {o : Offset}
    (hacc : s.queue.accepts o = true) (hlt : o < s.queue.toCommit) :
    ∃ s', run callLogged s [.waitOffset o, .popOffsetToCommit] = some s' ∧
      ¬ NeverBackwards s' := by
  obtain ⟨gone, here, t⟩ := f.tracked
  have hnonneg : 0 ≤ o := ((accepts_iff s.queue t.wellFormed o).mp hacc).1
  have hwait : s.queue.waitOffset o
      = { s.queue with offsetsReceived := s.queue.offsetsReceived ++ [o] } := if_pos hacc
  have hcommitted : (s.queue.waitOffset o).committed = s.popped.getLast?.getD INVALID_OFFSET := by
    rw [hwait]
    exact f.committed_eq
  have hto : (s.queue.waitOffset o).toCommit = s.queue.toCommit := by rw [hwait]
  have hmem : o ∈ (s.queue.waitOffset o).popOffsetToCommit.1.offsetsReceived := by
    rw [popOffsetToCommit_committed, hwait]
    simp
  refine ⟨_, by rw [run_cons, callLogged_wait, Option.bind_some, run_cons, callLogged_pop,
    Option.bind_some, run_nil], fun h => ?_⟩
  -- whether `_toCommit` was returned before or is returned now, it is the last value
  have hlast := popOffsetToCommit_last hcommitted
  rw [hto] at hlast
  cases hv : (s.popped ++ (s.queue.waitOffset o).popOffsetToCommit.2.toList).getLast? with
  | none =>
    rw [hv, Option.getD_none] at hlast
    have hneg : o < INVALID_OFFSET := hlast ▸ hlt
    exact absurd (hnonneg.trans_lt hneg) (by decide)
  | some v =>
    rw [hv, Option.getD_some] at hlast
    have hlt' : o < v := hlast ▸ hlt
    exact absurd (h.waiting_ge v hv o hmem) (not_le.mpr hlt')

/-! ## §3. Every run. -/

/-- **The committed position never moves backwards** in runs whose accepted offsets are at or
above `_toCommit`: after every call the values returned increase strictly, and what waits is
not below the last one.  After such a run an accepted offset below `_toCommit` is overtaken, if
`popOffsetToCommit` comes at once. -/
theorem run_neverBackwards (info : String) (cs : List Call)
    (hok : Along callLogged (fun s c => AcksOpen s c ∧ WaitsAbove s c) (Logged.start info) cs) :
    (∀ pre, pre <+: cs → ∃ s, run callLogged (Logged.start info) pre = some s ∧
      NeverBackwards s) ∧
    (∀ s o, run callLogged (Logged.start info) cs = some s → s.queue.accepts o = true →
      o < s.queue.toCommit →
      ∃ s', run callLogged (Logged.start info) (cs ++ [.waitOffset o, .popOffsetToCommit])
        = some s' ∧ ¬ NeverBackwards s') := by
  constructor
  · rintro pre ⟨post, rfl⟩
    obtain ⟨s, hs, f⟩ := run_total callLogged_forward (forward_start info) (Along.append.mp hok).1
    exact ⟨s, hs, f.neverBackwards⟩
  · intro s o hs hacc hlt
    obtain ⟨t, ht, f⟩ := run_total callLogged_forward (forward_start info) hok
    obtain rfl : s = t := by simpa [hs] using ht
    obtain ⟨s', hs', hback⟩ := f.overtaken hacc hlt
    exact ⟨s', by simp [run_append, hs, hs'], hback⟩

/-- The deque runs empty and fills up again. -/
theorem run_neverBackwards_refilled :
    ∃ s, run callLogged (Logged.start "") [.waitOffset 3, .waitOffset 5, .ackOffset 5,
        .ackOffset 3, .popOffsetToCommit, .waitOffset 6, .ackOffset 6, .popOffsetToCommit]
          = some s ∧
      s.popped = [6, 7] ∧ NeverBackwards s := by
  obtain ⟨s, hs, h⟩ := (run_neverBackwards "" [.waitOffset 3, .waitOffset 5, .ackOffset 5,
    .ackOffset 3, .popOffsetToCommit, .waitOffset 6, .ackOffset 6, .popOffsetToCommit]
    (by decide +kernel)).1 _ List.prefix_rfl
  have hpopped : (run callLogged (Logged.start "") [.waitOffset 3, .waitOffset 5, .ackOffset 5,
      .ackOffset 3, .popOffsetToCommit, .waitOffset 6, .ackOffset 6, .popOffsetToCommit]).map
      Logged.popped = some [6, 7] := by decide +kernel
  exact ⟨s, hs, by simpa [hs] using hpopped, h⟩

/-- Record 5 is delivered again after 11 was returned: the deque is empty, 5 is accepted, and 6
is returned after 11. -/
theorem redelivery_moves_backwards :
    ¬ ∀ cs s, Along callLogged AcksOpen (Logged.start "") cs →
      run callLogged (Logged.start "") cs = some s → NeverBackwards s := by
  intro h
  have hok : Along callLogged AcksOpen (Logged.start "") [.waitOffset 10, .ackOffset 10,
      .popOffsetToCommit, .waitOffset 5, .ackOffset 5, .popOffsetToCommit] := by decide +kernel
  have hrun : (run callLogged (Logged.start "") [.waitOffset 10, .ackOffset 10,
      .popOffsetToCommit, .waitOffset 5, .ackOffset 5, .popOffsetToCommit]).map Logged.popped
      = some [11, 6] := by decide +kernel
  obtain ⟨s, hs, hpopped⟩ := Option.map_eq_some_iff.mp hrun
  have := (h _ s hok hs).increasing
  rw [hpopped] at this
  exact absurd this (by decide)

end ModernCppKafka.Queue
