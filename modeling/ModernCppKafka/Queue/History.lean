/-
  ModernCppKafka.Queue.History — what a user of the queue can know, and what may be committed.

  A `History` is kept beside the queue by watching the calls only: the offsets `waitOffset`
  accepted, in order of acceptance, each with a mark telling whether an `ackOffset` of it came
  AFTER its acceptance; and the value `popOffsetToCommit` returned last.  `trace` runs both.

  `Justified q h` is the safety property of a commit queue: every offset that left the deque is
  marked, and `_toCommit` is one past the last of them.  An acknowledgement of an offset the
  queue has not received goes into the heap all the same and may be taken for the
  acknowledgement of a record received later (`early_ack_counts`); runs in which no accepted
  offset is already in the heap are justified throughout (`run_justified`).
-/
import ModernCppKafka.Queue.Safety

namespace ModernCppKafka.Queue

open ModernCppKafka.Lib.Frontier
open ModernCppKafka.Lib.Run
open UnorderedOffsetCommitQueue

/-! ## §1. Histories. -/

/-- One acceptance by `waitOffset`. -/
structure Occurrence where
  offset : Offset
  /-- An `ackOffset` of this offset came after this acceptance. -/
  acked : Bool := false
  deriving DecidableEq, Repr

/-- The effect of `ackOffset(o)` on an earlier acceptance. -/
def Occurrence.mark (o : Offset) (x : Occurrence) : Occurrence :=
  if x.offset = o then { x with acked := true } else x

structure History where
  accepted : List Occurrence := []
  lastPopped : Option Offset := none
  deriving DecidableEq, Repr

/-- Write down one call made on the queue `q`. -/
def History.record (h : History) (q : UnorderedOffsetCommitQueue) : Call → History
  | .waitOffset o =>
      if q.accepts o then { h with accepted := h.accepted ++ [⟨o, false⟩] } else h
  | .ackOffset o => { h with accepted := h.accepted.map (Occurrence.mark o) }
  | .popOffsetToCommit => { h with lastPopped := q.popOffsetToCommit.2.or h.lastPopped }
  | .lastPoppedOffset => h

/-- One call, on the queue and its history. -/
def trace (s : UnorderedOffsetCommitQueue × History) (c : Call) :
    Option (UnorderedOffsetCommitQueue × History) :=
  (step s.1 c).map fun q' => (q', s.2.record s.1 c)

/-- A fresh queue with an empty history. -/
def start (info : String) : UnorderedOffsetCommitQueue × History := (fresh info, {})

@[simp] theorem mark_offset (o : Offset) (x : Occurrence) : (x.mark o).offset = x.offset := by
  unfold Occurrence.mark
  split <;> rfl

theorem mark_of_ne {o : Offset} {x : Occurrence} (h : x.offset ≠ o) : x.mark o = x :=
  if_neg h

theorem mark_acked {o : Offset} {x : Occurrence} :
    (x.mark o).acked = true ↔ x.offset = o ∨ x.acked = true := by
  unfold Occurrence.mark
  split <;> simp [*]

@[simp] theorem map_mark_offset (o : Offset) (l : List Occurrence) :
    (l.map (Occurrence.mark o)).map Occurrence.offset = l.map Occurrence.offset := by
  simp

theorem trace_eq_some {q q' : UnorderedOffsetCommitQueue} {h h' : History} {c : Call} :
    trace (q, h) c = some (q', h') ↔ step q c = some q' ∧ h' = h.record q c := by
  simp only [trace, Option.map_eq_some_iff, Prod.mk.injEq]
  grind

/-! ## §2. The safety of what is committed. -/

/-- The acceptances whose offset left the deque. -/
def retired (q : UnorderedOffsetCommitQueue) (h : History) : List Occurrence :=
  h.accepted.take (h.accepted.length - q.size)

/-- The acceptances whose offset is still in the deque. -/
def waiting (q : UnorderedOffsetCommitQueue) (h : History) : List Occurrence :=
  h.accepted.drop (h.accepted.length - q.size)

/-- What left the deque was acknowledged after it came in, and `_toCommit` is one past the last
of it (initially `-1`).  As the retired acceptances are a prefix of all, this says of every value
`ackOffset` ever stored in `_toCommit` that it is one past an accepted offset which, with every
offset accepted before it, was acknowledged since its acceptance. -/
structure Justified (q : UnorderedOffsetCommitQueue) (h : History) : Prop where
  acked : ∀ x ∈ retired q h, x.acked = true
  toCommit_eq : q.toCommit = commitAfter INVALID_OFFSET ((retired q h).getLast?.map (·.offset))
  received_eq : q.offsetsReceived = (waiting q h).map (·.offset)

/-- No acknowledgement of an offset is in the heap when the offset is accepted. -/
def NoEarlyAck (s : UnorderedOffsetCommitQueue × History) : Call → Prop
  | .waitOffset o => s.1.accepts o = true → o ∉ s.1.offsetsToCommit.data.toList
  | _ => True

instance (s : UnorderedOffsetCommitQueue × History) : ∀ c : Call, Decidable (NoEarlyAck s c)
  | .waitOffset o =>
    inferInstanceAs (Decidable (s.1.accepts o = true → o ∉ s.1.offsetsToCommit.data.toList))
  | .ackOffset _ | .popOffsetToCommit | .lastPoppedOffset => .isTrue trivial

/-- The invariant behind `Justified`: the history splits where the deque begins, and an
acknowledgement in the heap of an offset in the deque came after the offset. -/
structure Attributed (q : UnorderedOffsetCommitQueue) (h : History)
    (gone here : List Occurrence) : Prop where
  wellFormed : WellFormed q
  split : h.accepted = gone ++ here
  received_eq : q.offsetsReceived = here.map (·.offset)
  gone_acked : ∀ x ∈ gone, x.acked = true
  toCommit_eq : q.toCommit = commitAfter INVALID_OFFSET (gone.getLast?.map (·.offset))
  attributed : ∀ x ∈ here, x.offset ∈ q.pending → x.acked = true

theorem Attributed.justified {q : UnorderedOffsetCommitQueue} {h : History}
    {gone here : List Occurrence} (a : Attributed q h gone here) : Justified q h := by
  have hlen : h.accepted.length - q.size = gone.length := by
    rw [a.split, UnorderedOffsetCommitQueue.size, a.received_eq]
    simp
  have hret : retired q h = gone := by rw [retired, hlen, a.split, List.take_left]
  have hwait : waiting q h = here := by rw [waiting, hlen, a.split, List.drop_left]
  exact ⟨hret ▸ a.gone_acked, hret ▸ a.toCommit_eq, hwait ▸ a.received_eq⟩

theorem attributed_start (info : String) : Attributed (fresh info) {} [] [] :=
  ⟨wellFormed_fresh info, rfl, rfl, by simp, rfl, by simp⟩

/-! ## §3. One call. -/

theorem Attributed.wait {q : UnorderedOffsetCommitQueue} {h : History} {gone here : List Occurrence}
    (a : Attributed q h gone here) (o : Offset)
    (hfree : q.accepts o = true → o ∉ q.offsetsToCommit.data.toList) :
    ∃ here', Attributed (q.waitOffset o) (h.record q (.waitOffset o)) gone here' := by
  have hwf := waitOffset_wellFormed a.wellFormed o
  unfold waitOffset at hwf ⊢
  unfold History.record
  cases hacc : q.accepts o with
  | false =>
    simp only [hacc] at hwf ⊢
    exact ⟨here, hwf, a.split, a.received_eq, a.gone_acked, a.toCommit_eq, a.attributed⟩
  | true =>
    simp only [hacc, if_true] at hwf ⊢
    refine ⟨here ++ [⟨o, false⟩], hwf, by simp [a.split], by simp [a.received_eq], a.gone_acked,
      a.toCommit_eq, ?_⟩
    intro x hx hp
    rcases List.mem_append.mp hx with hx | hx
    · exact a.attributed x hx hp
    · -- the offset just accepted is not in the heap
      obtain rfl : x = ⟨o, false⟩ := by simpa using hx
      exact absurd (q.offsetsToCommit.sorted_perm.mem_iff.mp hp) (hfree hacc)

theorem Attributed.ack {q q' : UnorderedOffsetCommitQueue} {h : History}
    {gone here : List Occurrence} (a : Attributed q h gone here) {o : Offset}
    (hack : q.ackOffset o = some q') :
    ∃ gone' here', Attributed q' (h.record q (.ackOffset o)) gone' here' := by
  obtain ⟨out, d, hto, -, ho⟩ := ackOffset_spec a.wellFormed hack
  have hwf := step_wellFormed q (.ackOffset o) q' a.wellFormed hack
  -- every pending acknowledgement, this one included, marks what it names in the deque
  have hmarked : ∀ x ∈ here.map (Occurrence.mark o),
      x.offset ∈ q.pending.orderedInsert (· ≤ ·) o → x.acked = true := by
    intro x hx hp
    obtain ⟨y, hy, rfl⟩ := List.mem_map.mp hx
    rw [mark_offset, List.mem_orderedInsert] at hp
    exact mark_acked.mpr (hp.imp id (a.attributed y hy))
  -- split the marked deque where the drain did
  have hsplit : (here.map (Occurrence.mark o)).map (·.offset) = out ++ q'.offsetsReceived := by
    rw [map_mark_offset, ← a.received_eq]
    exact d.split
  obtain ⟨front, back, hfb, hfront, hback⟩ := List.map_eq_append_iff.mp hsplit
  have hmem : ∀ x ∈ front, x.acked = true := by
    intro x hx
    refine hmarked x (by rw [hfb]; exact List.mem_append_left _ hx) (d.acked _ ?_)
    rw [← hfront]
    exact List.mem_map_of_mem hx
  refine ⟨gone.map (Occurrence.mark o) ++ front, back, hwf, ?_, hback.symm, ?_, ?_, ?_⟩
  · simp only [History.record, a.split, List.map_append, hfb, List.append_assoc]
  · intro x hx
    rcases List.mem_append.mp hx with hx | hx
    · obtain ⟨y, hy, rfl⟩ := List.mem_map.mp hx
      exact mark_acked.mpr (Or.inr (a.gone_acked y hy))
    · exact hmem x hx
  · have hlast : out.getLast? = front.getLast?.map (·.offset) := by
      rw [← hfront, List.getLast?_map]
    rw [hto, a.toCommit_eq, hlast, List.getLast?_append]
    cases front.getLast? with
    | some x => rfl
    | none => simp [List.getLast?_map, Option.map_map, Function.comp_def, commitAfter]
  · intro x hx hp
    exact hmarked x (by rw [hfb]; exact List.mem_append_right _ hx) (d.suffix.subset hp)

theorem trace_attributed (s : UnorderedOffsetCommitQueue × History) (c : Call)
    (s' : UnorderedOffsetCommitQueue × History)
    (ha : ∃ gone here, Attributed s.1 s.2 gone here) (hok : NoEarlyAck s c)
    (h : trace s c = some s') : ∃ gone here, Attributed s'.1 s'.2 gone here := by
  obtain ⟨q, hist⟩ := s
  obtain ⟨q', hist'⟩ := s'
  obtain ⟨gone, here, a⟩ := ha
  obtain ⟨hstep, rfl⟩ := trace_eq_some.mp h
  cases c with
  | waitOffset o =>
    obtain rfl : q.waitOffset o = q' := by simpa [step] using hstep
    obtain ⟨here', a'⟩ := a.wait o hok
    exact ⟨gone, here', a'⟩
  | ackOffset o => exact a.ack hstep
  | popOffsetToCommit =>
    have hwf := step_wellFormed q .popOffsetToCommit q' a.wellFormed hstep
    obtain rfl : q.popOffsetToCommit.1 = q' := by simpa [step] using hstep
    refine ⟨gone, here, ?_⟩
    unfold popOffsetToCommit at hwf ⊢
    split at hwf
    next hne =>
      rw [if_pos hne]
      exact ⟨hwf, a.split, a.received_eq, a.gone_acked, a.toCommit_eq, a.attributed⟩
    next heq =>
      rw [if_neg heq]
      exact ⟨hwf, a.split, a.received_eq, a.gone_acked, a.toCommit_eq, a.attributed⟩
  | lastPoppedOffset =>
    obtain rfl : q = q' := by simpa [step] using hstep
    exact ⟨gone, here, a⟩

/-! ## §4. Every run. -/

/-- **Nothing is committed past an unhandled record**, in every run of calls in which no offset
is accepted while an acknowledgement of it is already in the heap. -/
theorem run_justified (info : String) (cs : List Call) (q : UnorderedOffsetCommitQueue)
    (h : History) (hok : Along trace NoEarlyAck (start info) cs)
    (hrun : run trace (start info) cs = some (q, h)) : Justified q h := by
  have hstart : ∃ gone here, Attributed (start info).1 (start info).2 gone here :=
    ⟨[], [], attributed_start info⟩
  obtain ⟨gone, here, a⟩ := run_invariant_along trace_attributed hstart hok hrun
  exact a.justified

/-- A too large acknowledgement that is never followed by its record does no harm. -/
theorem run_justified_stray :
    ∃ q h, run trace (start "") [.waitOffset 1, .waitOffset 2, .ackOffset 9, .ackOffset 1]
        = some (q, h) ∧ q.toCommit = 2 ∧ Justified q h := by
  have hrun : run trace (start "") [.waitOffset 1, .waitOffset 2, .ackOffset 9, .ackOffset 1]
      = some ({ (fresh "") with
          offsetsReceived := [2], offsetsToCommit := ⟨#[9]⟩, toCommit := 2
          errors := [.ackTooLarge 9 2] }, { accepted := [⟨1, true⟩, ⟨2, false⟩] }) := by
    decide +kernel
  exact ⟨_, _, hrun, rfl, run_justified "" _ _ _ (by decide +kernel) hrun⟩

/-- An acknowledgement of 5 reported as too large counts for the record 5 that arrives later:
6 is committed although 5 was not acknowledged since. -/
theorem early_ack_counts :
    ¬ ∀ cs q h, run trace (start "") cs = some (q, h) → Justified q h := by
  intro hall
  have hrun : run trace (start "") [.waitOffset 1, .ackOffset 5, .waitOffset 5, .waitOffset 6,
      .ackOffset 1] = some ({ (fresh "") with
          offsetsReceived := [6], toCommit := 6, errors := [.ackTooLarge 5 1] },
        { accepted := [⟨1, true⟩, ⟨5, false⟩, ⟨6, false⟩] }) := by
    decide +kernel
  have hj := hall _ _ _ hrun
  have := hj.acked ⟨5, false⟩ (by decide +kernel)
  simp at this

end ModernCppKafka.Queue
