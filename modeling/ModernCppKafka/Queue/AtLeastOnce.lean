/-
  ModernCppKafka.Queue.AtLeastOnce — a partition consumed with an `UnorderedOffsetCommitQueue`.

  The use the class comment describes, of one partition: each record received is waited for and
  forwarded to a handler; a handler that is done acknowledges it, in any order; from time to time
  the offset popped is committed.  The consumer may crash at any moment, and a new one starts
  with a new queue at the committed offset.  The broker may drop records, and the commits asked
  of it may reach it late, twice, out of order, after a crash, or never.

  Main results:
    * `at_least_once` — no record is lost: below the committed offset all records were handled;
    * `commits_up_to_date` — once the handlers are done, a pop moves up to the next record to
      receive.
-/
import ModernCppKafka.Consumer.Commit
import ModernCppKafka.Lib.Coverage
import ModernCppKafka.Queue.AckOrder

namespace ModernCppKafka.Queue.AtLeastOnce

open ModernCppKafka.Consumer (commitSync)
open ModernCppKafka.Lib.Coverage
open ModernCppKafka.Lib.Run
open UnorderedOffsetCommitQueue

/-! ## §1. The system. -/

structure Consumption where
  /-- The offsets of the records the broker holds, and the one after the last it ever held. -/
  log : List Offset := []
  logEnd : Offset := 0
  /-- What the broker has as committed. -/
  committed : Option Offset := none
  /-- What it was asked to commit. -/
  requested : RkTopicPartitionList := []
  /-- The consumer's position, and its queue. -/
  position : Offset := 0
  session : UnorderedOffsetCommitQueue × History
  /-- The records some handler was done with. -/
  handled : List Offset := []

/-- The records received of this session whose handlers are not done. -/
def Consumption.isOpen (s : Consumption) (o : Offset) : Prop := ⟨o, false⟩ ∈ s.session.2.accepted

instance (s : Consumption) (o : Offset) : Decidable (s.isOpen o) := inferInstanceAs (Decidable (_ ∈ _))

/-- No record the broker holds from the position on comes before this offset. -/
def Consumption.isFirst (s : Consumption) (o : Offset) : Prop :=
  ∀ r ∈ s.log, s.position ≤ r → o ≤ r

instance (s : Consumption) (o : Offset) : Decidable (s.isFirst o) := List.decidableBAll _ s.log

inductive Action where
  /-- A record is appended to the partition, or dropped from it. -/
  | append (o : Offset)
  | drop (o : Offset)
  /-- `poll` returns a record, for which `waitOffset` is called. -/
  | receive (o : Offset)
  /-- A handler is done with a record and calls `ackOffset`. -/
  | handle (o : Offset)
  /-- `popOffsetToCommit`, and `commitSync` of what it returns; librdkafka answers `respErr`. -/
  | commit (respErr : RespErr)
  /-- A commit asked for takes effect. -/
  | committed (e : RkTopicPartition)
  /-- A crash; the next consumer starts at the committed offset, else at the earliest. -/
  | restart
  deriving DecidableEq

variable (topic : CString) (partition : Partition)

/-- The partition as a key. -/
def topicPartition : TopicPartition := ⟨topic.val, partition⟩

/-- A queue for the partition, as documented. -/
def newSession : UnorderedOffsetCommitQueue × History := (ofPartition topic.val partition, {})

def start : Consumption where
  session := newSession topic partition

/-- What `commitSync` asks of librdkafka. -/
def requestFor (respErr : RespErr) (o : Offset) : RkTopicPartitionList :=
  let tpos := (∅ : TopicPartitionOffsets).insert (topicPartition topic partition) o
  ((commitSync tpos respErr : Consumer.CommitRequest Empty × _).1).offsets.getD []

def step (s : Consumption) : Action → Option Consumption
  | .append o =>
    if s.logEnd ≤ o ∧ o < Int64.maxValue then
      some { s with log := s.log ++ [o], logEnd := o + 1 }
    else none
  | .drop o => some { s with log := s.log.erase o }
  | .receive o =>
    -- the next record the broker holds
    if o ∈ s.log ∧ s.position ≤ o ∧ s.isFirst o then
      (trace s.session (.waitOffset o)).map fun session => { s with session, position := o + 1 }
    else none
  | .handle o =>
    if s.isOpen o then
      (trace s.session (.ackOffset o)).map fun session =>
        { s with session, handled := s.handled ++ [o] }
    else none
  | .commit respErr =>
    (trace s.session .popOffsetToCommit).map fun session =>
      { s with
        session
        requested := s.requested ++ s.session.1.popOffsetToCommit.2.toList.flatMap
          (requestFor topic partition respErr) }
  | .committed e =>
    if e ∈ s.requested ∧ e.key = topicPartition topic partition then
      some { s with committed := some e.offset }
    else none
  | .restart =>
    some { s with session := newSession topic partition, position := s.committed.getD 0 }

/-! ## §2. The invariant. -/

/-- The partition, and what was handled of it. -/
def Consumption.feed (s : Consumption) : Feed Offset Offset := ⟨s.log, s.logEnd, s.handled⟩

/-- The session received a record. -/
def Consumption.received (s : Consumption) (o : Offset) : Prop :=
  ∃ x ∈ s.session.2.accepted, x.offset = o

/-- The session received all records below its position that were not handled before it. -/
structure Received (s : Consumption) : Prop where
  tracked : ∃ gone here, Tracked s.session.1 s.session.2 gone here
  increasing : (s.session.2.accepted.map (·.offset)).Pairwise (· < ·)
  last : ∀ x ∈ s.session.2.accepted.getLast?, s.position = x.offset + 1
  handled : ∀ x ∈ s.session.2.accepted, x.acked = true → x.offset ∈ s.handled
  all : s.feed.Accounts id s.position s.received

structure Sound (s : Consumption) : Prop where
  log : ∀ o ∈ s.log, 0 ≤ o ∧ o < s.logEnd
  logEnd : 0 ≤ s.logEnd
  received : Received s
  requested : ∀ e ∈ s.requested, e.key = topicPartition topic partition →
    s.feed.Covers id e.offset
  committed : ∀ v ∈ s.committed, s.feed.Covers id v

/-! ## §3. What a step keeps. -/

theorem grows_of_eq {s s' : Consumption} (hlog : s'.log = s.log) (hend : s'.logEnd = s.logEnd)
    (hhandled : s'.handled = s.handled) : Feed.Grows id s.feed s'.feed := by
  have hfeed : s'.feed = s.feed := by simp only [Consumption.feed, hlog, hend, hhandled]
  rw [hfeed]
  exact .refl

/-- A session that is not touched still has what there is below its position. -/
theorem Received.grows {s s' : Consumption} (h : Received s)
    (hg : Feed.Grows id s.feed s'.feed) (hsession : s'.session = s.session)
    (hposition : s'.position = s.position) : Received s' := by
  obtain ⟨htracked, hincreasing, hlast, hhandled, hall⟩ := h
  constructor
  · rwa [hsession]
  · rwa [hsession]
  · rwa [hsession, hposition]
  · rw [hsession]
    exact fun x hx hacked => hg.finished _ (hhandled x hx hacked)
  · rw [hposition]
    refine hall.grows hg fun o ho => .inr ?_
    rwa [Consumption.received, hsession]

/-- All records received come before the position. -/
theorem Received.lt_position {s : Consumption} (h : Received s) {x : Occurrence}
    (hx : x ∈ s.session.2.accepted) : x.offset < s.position := by
  obtain ⟨gone, here, ht⟩ := h.tracked
  obtain ⟨last, hlast⟩ : ∃ last, s.session.2.accepted.getLast? = some last := by
    rw [List.getLast?_eq_some_getLast (List.ne_nil_of_mem hx)]
    exact ⟨_, rfl⟩
  have hle : x.offset ≤ last.offset := by
    refine Lib.Frontier.le_getLast h.increasing (List.mem_map_of_mem hx) ?_
    rw [List.getLast?_map, hlast]
    rfl
  have hmax : last.offset < Int64.maxValue := (ht.bounded last (List.mem_of_getLast? hlast)).2
  rw [h.last last hlast]
  exact (Offset.lt_add_one_iff hmax).mpr hle

/-- The next record is accepted by the queue. -/
theorem Received.accepts {s : Consumption} (h : Received s) {o : Offset} (hnonneg : 0 ≤ o)
    (hposition : s.position ≤ o) : s.session.1.accepts o = true := by
  obtain ⟨gone, here, ht⟩ := h.tracked
  refine (accepts_iff _ ht.wellFormed o).mpr ⟨hnonneg, fun e he => ?_⟩
  rw [ht.received_eq] at he
  obtain ⟨x, hx, rfl⟩ := List.mem_map.mp he
  have hin : x ∈ s.session.2.accepted := by
    rw [ht.split]
    exact List.mem_append_right _ hx
  exact (h.lt_position hin).trans_le hposition

theorem Received.receive {s s' : Consumption} (h : Received s) {o : Offset} (hnonneg : 0 ≤ o)
    (hmax : o < Int64.maxValue) (hposition : s.position ≤ o)
    (hnext : ∀ r ∈ s.log, s.position ≤ r → o ≤ r)
    (hsession : trace s.session (.waitOffset o) = some s'.session)
    (hupper : o < s.logEnd) (hpos : s'.position = o + 1) (hlog : s'.log = s.log)
    (hend : s'.logEnd = s.logEnd) (hhandled : s'.handled = s.handled) : Received s' := by
  have hacc : s.session.1.accepts o = true := h.accepts hnonneg hposition
  obtain ⟨gone, here, ht⟩ := h.tracked
  obtain ⟨here', ht'⟩ := ht.wait (o := o) fun _ => hmax
  have heq : (s.session.1.waitOffset o, s.session.2.record s.session.1 (.waitOffset o))
      = s'.session := Option.some.inj hsession
  have haccepted : s'.session.2.accepted = s.session.2.accepted ++ [⟨o, false⟩] := by
    rw [← heq]
    simp [History.record, hacc]
  constructor
  · rw [← heq]
    exact ⟨gone, here', ht'⟩
  · rw [haccepted, List.map_append, List.pairwise_append]
    refine ⟨h.increasing, List.pairwise_singleton _ _, fun e he x hx => ?_⟩
    obtain ⟨y, hy, rfl⟩ := List.mem_map.mp he
    obtain rfl : x = o := by simpa using hx
    exact (h.lt_position hy).trans_le hposition
  · intro x hx
    rw [haccepted, List.getLast?_concat] at hx
    rw [hpos, ← Option.some.inj hx]
  · intro x hx hacked
    rw [haccepted] at hx
    rw [hhandled]
    cases List.mem_append.mp hx with
    | inl hx => exact h.handled x hx hacked
    | inr hx => simp [List.mem_singleton.mp hx] at hacked
  · have hfeed : s'.feed = s.feed := by simp only [Consumption.feed, hlog, hend, hhandled]
    rw [hfeed, hpos]
    refine h.all.next o (Offset.add_one_le hupper) (fun r hr hle hlt => ?_)
      (fun r hr => ?_) (fun r _ hr => ?_)
    -- between the old position and `o` there is no record
    · exact le_antisymm ((Offset.lt_add_one_iff hmax).mp hlt) (hnext r hr hle)
    · obtain ⟨x, hx, hxr⟩ := hr
      exact ⟨x, haccepted ▸ List.mem_append_left _ hx, hxr⟩
    · exact ⟨⟨o, false⟩, by simp [haccepted], hr.symm⟩

theorem Received.handle {s s' : Consumption} (h : Received s) {o : Offset} (ho : s.isOpen o)
    (hsession : trace s.session (.ackOffset o) = some s'.session)
    (hg : Feed.Grows id s.feed s'.feed) (hposition : s'.position = s.position)
    (hhandled : s'.handled = s.handled ++ [o]) : Received s' := by
  obtain ⟨gone, here, ht⟩ := h.tracked
  obtain ⟨q, hq, gone', here', ht'⟩ := ht.ack ho
  obtain ⟨hq', hrecord⟩ := trace_eq_some.mp hsession
  obtain rfl : s'.session.1 = q := Option.some.inj (hq'.symm.trans hq)
  have haccepted : s'.session.2.accepted = s.session.2.accepted.map (Occurrence.mark o) := by
    rw [hrecord]
    rfl
  constructor
  · rw [hrecord]
    exact ⟨gone', here', ht'⟩
  · rw [haccepted, map_mark_offset]
    exact h.increasing
  · intro x hx
    rw [haccepted, List.getLast?_map] at hx
    obtain ⟨y, hy, rfl⟩ := Option.map_eq_some_iff.mp hx
    rw [hposition, mark_offset]
    exact h.last y hy
  · -- acknowledged are those that were, and the one handled now
    intro x hx hacked
    rw [haccepted] at hx
    obtain ⟨y, hy, rfl⟩ := List.mem_map.mp hx
    rw [hhandled, mark_offset]
    cases mark_acked.mp hacked with
    | inl heq => simp [heq]
    | inr hy' => exact List.mem_append_left _ (h.handled y hy hy')
  · rw [hposition]
    refine h.all.grows hg fun r hr => .inr ?_
    obtain ⟨x, hx, hxr⟩ := hr
    exact ⟨x.mark o, haccepted ▸ List.mem_map_of_mem hx, (mark_offset o x).trans hxr⟩

theorem Received.commit {s s' : Consumption} (h : Received s)
    (hsession : trace s.session .popOffsetToCommit = some s'.session)
    (hg : Feed.Grows id s.feed s'.feed) (hposition : s'.position = s.position)
    (hhandled : s'.handled = s.handled) : Received s' := by
  obtain ⟨gone, here, ht⟩ := h.tracked
  have heq : (s.session.1.popOffsetToCommit.1, s.session.2.record s.session.1 .popOffsetToCommit)
      = s'.session := Option.some.inj hsession
  have haccepted : s'.session.2.accepted = s.session.2.accepted := by
    rw [← heq]
    rfl
  refine ⟨?_, haccepted ▸ h.increasing, ?_, ?_, ?_⟩
  · rw [← heq]
    exact ⟨gone, here, ht.pop⟩
  · rw [haccepted, hposition]
    exact h.last
  · rw [haccepted, hhandled]
    exact h.handled
  · rw [hposition]
    refine h.all.grows hg fun r hr => .inr ?_
    rwa [Consumption.received, haccepted]

/-! ## §4. What is asked to be committed. -/

/-- What is popped is one past the last record of the acknowledged prefix. -/
theorem pop_cases {q : UnorderedOffsetCommitQueue} {h : History} {gone here : List Occurrence}
    (ht : Tracked q h gone here) {v : Offset} (hv : v ∈ q.popOffsetToCommit.2) :
    ∃ e, gone.getLast? = some e ∧ v = e.offset + 1 := by
  have hpopped : (h.record q .popOffsetToCommit).lastPopped = some v := by
    simp [History.record, Option.mem_def.mp hv]
  have hgone : gone ≠ [] := (ht.pop.popped_ne v hpopped).2
  have hcommit : v = q.toCommit := by
    unfold popOffsetToCommit at hv
    split at hv
    next => exact (Option.some.inj hv).symm
    next => simp at hv
  refine ⟨gone.getLast hgone, List.getLast?_eq_some_getLast hgone, ?_⟩
  rw [hcommit, ht.toCommit_eq, List.getLast?_eq_some_getLast hgone]
  rfl

theorem Received.covers {s : Consumption} (h : Received s) {v : Offset}
    (hv : v ∈ s.session.1.popOffsetToCommit.2) : s.feed.Covers id v := by
  obtain ⟨gone, here, ht⟩ := h.tracked
  obtain ⟨e, he, rfl⟩ := pop_cases ht hv
  have hgone : e ∈ gone := List.mem_of_getLast? he
  have hin (x : Occurrence) (hx : x ∈ gone) : x ∈ s.session.2.accepted := by
    rw [ht.split]
    exact List.mem_append_left _ hx
  have hmax : e.offset < Int64.maxValue := (ht.bounded e (hin e hgone)).2
  refine h.all.covers (Offset.add_one_le (h.lt_position (hin e hgone))) fun o ho hlt => ?_
  obtain ⟨x, hx, rfl⟩ := ho
  rw [ht.split] at hx
  cases List.mem_append.mp hx with
  | inl hx => exact h.handled x (hin x hx) (ht.gone_acked x hx)
  | inr hx =>
    -- what still waits comes after the prefix
    have hsplit := h.increasing
    rw [ht.split, List.map_append, List.pairwise_append] at hsplit
    have hafter := hsplit.2.2 _ (List.mem_map_of_mem hgone) _ (List.mem_map_of_mem hx)
    exact absurd ((Offset.lt_add_one_iff hmax).mp hlt) (not_le.mpr hafter)

/-- The commit of an offset for the partition asks for that offset. -/
theorem offset_of_requestFor {respErr : RespErr} {v : Offset} {e : RkTopicPartition}
    (he : e ∈ requestFor topic partition respErr v) : e.offset = v := by
  have hne : (∅ : TopicPartitionOffsets).insert (topicPartition topic partition) v ≠ ∅ := by simp
  have hnul : NulFreeTopics ((∅ : TopicPartitionOffsets).insert
      (topicPartition topic partition) v) := by
    intro tp htp
    obtain rfl : topicPartition topic partition = tp := by simpa using htp
    exact topic.2
  unfold requestFor at he
  simp only [commitSync, Consumer.commit, Consumer.CommitRequest.offsets,
    Consumer.requestedOffsets_of_ne hne, Option.getD_some] at he
  have hentry := (mem_createRk_of_nulFree hnul).mp he
  rw [Std.ExtTreeMap.getElem?_insert] at hentry
  split at hentry
  next => exact (Option.some.inj hentry).symm
  next => simp at hentry

/-! ## §5. Every run. -/

variable {topic partition}

theorem step_grows {s s' : Consumption} {a : Action}
    (h : step topic partition s a = some s') : Feed.Grows id s.feed s'.feed := by
  cases a with
  | append o =>
    obtain ⟨⟨hend, hmax⟩, h⟩ := Option.ite_none_right_eq_some.mp h
    obtain rfl := Option.some.inj h
    refine ⟨fun r hr => ?_, ?_, fun _ hr => hr⟩
    · cases List.mem_append.mp hr with
      | inl hr => exact .inl hr
      | inr hr => exact .inr (List.mem_singleton.mp hr ▸ hend)
    · exact hend.trans ((Offset.lt_add_one_iff hmax).mpr (le_refl o)).le
  | drop o =>
    obtain rfl := Option.some.inj h
    exact ⟨fun r hr => .inl (List.mem_of_mem_erase hr), le_refl _, fun _ hr => hr⟩
  | receive o =>
    obtain ⟨-, h⟩ := Option.ite_none_right_eq_some.mp h
    obtain ⟨session, -, rfl⟩ := Option.map_eq_some_iff.mp h
    exact grows_of_eq rfl rfl rfl
  | handle o =>
    obtain ⟨-, h⟩ := Option.ite_none_right_eq_some.mp h
    obtain ⟨session, -, rfl⟩ := Option.map_eq_some_iff.mp h
    exact ⟨fun _ hr => .inl hr, le_refl _, fun _ hr => List.mem_append_left _ hr⟩
  | commit respErr =>
    unfold step at h
    obtain ⟨session, -, rfl⟩ := Option.map_eq_some_iff.mp h
    exact grows_of_eq rfl rfl rfl
  | committed e =>
    obtain ⟨-, h⟩ := Option.ite_none_right_eq_some.mp h
    obtain rfl := Option.some.inj h
    exact grows_of_eq rfl rfl rfl
  | restart =>
    obtain rfl := Option.some.inj h
    exact grows_of_eq rfl rfl rfl

theorem sound_start : Sound topic partition (start topic partition) where
  log := by simp [start]
  logEnd := le_refl _
  received := ⟨⟨[], [], tracked_start _⟩, .nil, by simp [start, newSession],
    by simp [start, newSession], le_refl _, by simp [start, Consumption.feed]⟩
  requested := by simp [start]
  committed := by simp [start]

/-- A new consumer starts where all records before were handled. -/
theorem received_restart {s : Consumption} (hs : Sound topic partition s) :
    Received { s with session := newSession topic partition, position := s.committed.getD 0 } := by
  have hcovers : s.feed.Covers id (s.committed.getD 0) := by
    cases hcommitted : s.committed with
    | none => exact ⟨hs.logEnd, fun o ho hlt => absurd hlt (not_lt.mpr (hs.log o ho).1)⟩
    | some v => exact hs.committed v hcommitted
  exact ⟨⟨[], [], tracked_start _⟩, .nil, by simp [newSession], by simp [newSession],
    hcovers.accounts⟩

theorem sound_step (s : Consumption) (a : Action) (s' : Consumption)
    (hs : Sound topic partition s) (h : step topic partition s a = some s') :
    Sound topic partition s' := by
  have hg : Feed.Grows id s.feed s'.feed := step_grows h
  have hrestart := received_restart hs
  -- no step undoes what was covered before it, so a case is about what it adds
  have hrequested (e : RkTopicPartition) (he : e ∈ s.requested)
      (hkey : e.key = topicPartition topic partition) : s'.feed.Covers id e.offset :=
    (hs.requested e he hkey).grows hg
  have hcommitted (v : Offset) (hv : v ∈ s.committed) : s'.feed.Covers id v :=
    (hs.committed v hv).grows hg
  obtain ⟨hlog, hend, hreceived, -, -⟩ := hs
  cases a with
  | append o =>
    obtain ⟨⟨hend', hmax⟩, h⟩ := Option.ite_none_right_eq_some.mp h
    obtain rfl := Option.some.inj h
    have hself : o < o + 1 := (Offset.lt_add_one_iff hmax).mpr (le_refl o)
    refine ⟨fun r hr => ?_, hend.trans hg.upper, hreceived.grows hg rfl rfl, hrequested,
      hcommitted⟩
    cases List.mem_append.mp hr with
    | inl hr => exact ⟨(hlog r hr).1, (hlog r hr).2.trans_le hg.upper⟩
    | inr hr =>
      rw [List.mem_singleton.mp hr]
      exact ⟨hend.trans hend', hself⟩
  | drop o =>
    obtain rfl := Option.some.inj h
    exact ⟨fun r hr => hlog r (List.mem_of_mem_erase hr), hend, hreceived.grows hg rfl rfl,
      hrequested, hcommitted⟩
  | receive o =>
    obtain ⟨⟨hin, hposition, hnext⟩, h⟩ := Option.ite_none_right_eq_some.mp h
    obtain ⟨session, hsession, rfl⟩ := Option.map_eq_some_iff.mp h
    have hmax : o < Int64.maxValue := (hlog o hin).2.trans_le (Int64.le_maxValue _)
    refine ⟨hlog, hend, ?_, hrequested, hcommitted⟩
    exact hreceived.receive (hlog o hin).1 hmax hposition hnext hsession (hlog o hin).2 rfl rfl rfl
      rfl
  | handle o =>
    obtain ⟨ho, h⟩ := Option.ite_none_right_eq_some.mp h
    obtain ⟨session, hsession, rfl⟩ := Option.map_eq_some_iff.mp h
    exact ⟨hlog, hend, hreceived.handle ho hsession hg rfl rfl, hrequested, hcommitted⟩
  | commit respErr =>
    unfold step at h
    obtain ⟨session, hsession, rfl⟩ := Option.map_eq_some_iff.mp h
    -- the broker is asked before it answers, so whatever the answer is
    refine ⟨hlog, hend, hreceived.commit hsession hg rfl rfl, fun e he hkey => ?_, hcommitted⟩
    cases List.mem_append.mp he with
    | inl he => exact hrequested e he hkey
    | inr he =>
      obtain ⟨v, hv, he⟩ := List.mem_flatMap.mp he
      rw [offset_of_requestFor topic partition he]
      exact (hreceived.covers (Option.mem_toList.mp hv)).grows hg
  | committed e =>
    -- however late: it was covered as it was asked for
    obtain ⟨⟨he, hkey⟩, h⟩ := Option.ite_none_right_eq_some.mp h
    obtain rfl := Option.some.inj h
    refine ⟨hlog, hend, hreceived.grows hg rfl rfl, hrequested, fun v hv => ?_⟩
    rw [← Option.some.inj hv]
    exact hrequested e he hkey
  | restart =>
    obtain rfl := Option.some.inj h
    exact ⟨hlog, hend, hrestart, hrequested, hcommitted⟩

theorem sound_run {actions : List Action} {s : Consumption}
    (hrun : run (step topic partition) (start topic partition) actions = some s) :
    Sound topic partition s :=
  run_invariant sound_step sound_start hrun

/-- **At least once**: in every run, all records below the committed offset were handled, and
each other record is, or is with a handler of this session, or is still to be received; and no
acknowledgement of a handler fails. -/
theorem at_least_once (topic : CString) (partition : Partition) (actions : List Action)
    (s : Consumption)
    (hrun : run (step topic partition) (start topic partition) actions = some s) :
    (∀ v ∈ s.committed, ∀ o ∈ s.log, o < v → o ∈ s.handled) ∧
    (∀ o ∈ s.log, o ∈ s.handled ∨ s.isOpen o ∨ s.position ≤ o) ∧
    (∀ o, s.isOpen o → (step topic partition s (.handle o)).isSome) := by
  have hs : Sound topic partition s := sound_run hrun
  refine ⟨fun v hv => (hs.committed v hv).finished, fun o ho => ?_, fun o ho => ?_⟩
  · by_cases hlt : o < s.position
    · cases hs.received.all.all o ho hlt with
      | inl hdone => exact .inl hdone
      | inr hx =>
        obtain ⟨x, hx, rfl⟩ := hx
        cases hacked : x.acked with
        | true => exact .inl (hs.received.handled x hx hacked)
        | false =>
          have hopen : x = ⟨x.offset, false⟩ := by rw [← hacked]
          exact .inr (.inl (hopen ▸ hx))
    · exact .inr (.inr (not_lt.mp hlt))
  · obtain ⟨gone, here, ht⟩ := hs.received.tracked
    obtain ⟨q, hq, -⟩ := ht.ack ho
    have htrace : trace s.session (.ackOffset o)
        = some (q, s.session.2.record s.session.1 (.ackOffset o)) := trace_eq_some.mpr ⟨hq, rfl⟩
    simp [step, ho, htrace]

/-- Two records handled out of order, committed, and a crash. -/
def handlesTwo : List Action :=
  [.append 0, .append 3, .receive 0, .receive 3, .handle 3, .commit RD_KAFKA_RESP_ERR_NO_ERROR,
    .handle 0, .commit RD_KAFKA_RESP_ERR_NO_ERROR, .append 7, .committed ⟨c_str "t", 0, 4⟩,
    .restart]

theorem at_least_once_crash : ∃ s, run (step (c_str "t") 0) (start (c_str "t") 0) handlesTwo
    = some s ∧ s.committed = some 4 ∧ (∀ o ∈ s.log, o < 4 → o ∈ s.handled) := by
  have hcommitted : (run (step (c_str "t") 0) (start (c_str "t") 0) handlesTwo).map
      Consumption.committed = some (some 4) := by decide +kernel
  obtain ⟨s, hs, hfour⟩ := Option.map_eq_some_iff.mp hcommitted
  exact ⟨s, hs, hfour, (at_least_once (c_str "t") 0 handlesTwo s hs).1 4 hfour⟩

end ModernCppKafka.Queue.AtLeastOnce
