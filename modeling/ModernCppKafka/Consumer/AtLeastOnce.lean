/-
  ModernCppKafka.Consumer.AtLeastOnce — a consumer group with "enable.auto.commit".

  The members of a group read the partitions of one broker and commit to it.  Each handles the
  batch a `poll` returned before it polls again or closes, which commits the batch; meanwhile
  its calls serve rebalances, of any kind.  What is assigned to whom is left open: two members
  may read a partition at once, and the commits asked of the broker may reach it late, twice,
  out of order, when the partition has moved on or the member has crashed, or never.  A member
  may crash at any moment, and resume any partition at the committed offset.  The broker may
  drop records.  What `poll` returns are the broker's records, with no marks of a partition's end
  ("enable.partition.eof") among them, and nobody seeks.

  Main results:
    * `auto_commit_at_least_once` — no record is lost, as long as a member whose commit failed
      does not poll or close after it;
    * `failed_commit_loses` — `close` after a `poll` that failed loses one.
-/
import ModernCppKafka.Consumer.Ownership
import ModernCppKafka.Lib.Coverage

namespace ModernCppKafka.Consumer.AtLeastOnce

open ModernCppKafka.Lib.Coverage
open ModernCppKafka.Lib.LastWriter
open ModernCppKafka.Lib.Run

variable {Cb : Type}

/-! ## §1. The system. -/

structure Member (Cb : Type) where
  client : Client Cb := {}
  /-- Where librdkafka fetches next. -/
  position : TopicPartition → Offset := fun _ => 0
  /-- The batch the application is handling. -/
  current : List ConsumerRecord := []
  /-- The commit of its last `poll` or `close` failed. -/
  failed : Bool := false

structure Group (Cb : Type) where
  /-- The records the broker holds, and the offsets after the last of each partition. -/
  log : List ConsumerRecord := []
  logEnd : TopicPartition → Offset := fun _ => 0
  /-- What the broker has as committed, and what it was asked to commit. -/
  committed : TopicPartition → Option Offset := fun _ => none
  requested : RkTopicPartitionList := []
  members : ℕ → Member Cb := fun _ => {}
  /-- The records a member was done with. -/
  handled : List ConsumerRecord := []

def start : Group Cb := {}

inductive Action (Cb : Type) where
  /-- A record is appended to its partition, or dropped from it. -/
  | append (r : ConsumerRecord)
  | drop (r : ConsumerRecord)
  /-- A member makes a call. -/
  | call (m : ℕ) (c : GroupCall Cb)
  /-- A commit asked for takes effect. -/
  | committed (e : RkTopicPartition)
  /-- A member goes on with a partition at the committed offset, else at the earliest. -/
  | resume (m : ℕ) (tp : TopicPartition)
  /-- A member crashes, and is started anew. -/
  | restart (m : ℕ)

/-- `poll` and `close` come when the batch before is handled. -/
def endsBatch : GroupCall Cb → Bool
  | .poll .. | .close .. => true
  | .subscribe .. | .unsubscribe .. => false

/-- The commit of the call throws. -/
def commitThrows (q : KafkaConsumer Cb) : GroupCall Cb → Bool
  | .poll respErr .. => !(q.commitStoredOffsetsIfNecessary .Async respErr).2.2.isOk
  | .close respErr .. => !(q.commitStoredOffsetsIfNecessary .Sync respErr).2.2.isOk
  | .subscribe .. | .unsubscribe .. => false

/-- `r` is the next record of its partition. -/
def IsNext (log : List ConsumerRecord) (position : TopicPartition → Offset)
    (r : ConsumerRecord) : Prop :=
  r ∈ log ∧ position r.topicPartition ≤ r.offset ∧
    ∀ r' ∈ log, r'.topicPartition = r.topicPartition →
      position r.topicPartition ≤ r'.offset → r.offset ≤ r'.offset

instance (log : List ConsumerRecord) (position : TopicPartition → Offset) (r : ConsumerRecord) :
    Decidable (IsNext log position r) := inferInstanceAs (Decidable (_ ∧ _ ∧ _))

/-- librdkafka fetches the records, each the next one of its partition. -/
def fetch (log : List ConsumerRecord) :
    (TopicPartition → Offset) → List ConsumerRecord → Option (TopicPartition → Offset)
  | position, [] => some position
  | position, r :: records =>
    if IsNext log position r then
      fetch log (Function.update position r.topicPartition (r.offset + 1)) records
    else none

/-- The member after a call that left librdkafka at `position`. -/
def Member.perform (member : Member Cb) (c : GroupCall Cb) (position : TopicPartition → Offset) :
    Member Cb :=
  if endsBatch c then
    { client := member.client.performGroup c
      position
      current := member.client.returns c
      failed := commitThrows member.client.consumer c }
  else { member with client := member.client.performGroup c }

/-- The entries of the commits. -/
def entriesOf (requests : List (CommitRequest Empty)) : RkTopicPartitionList :=
  requests.flatMap fun request => request.offsets.getD []

def Group.resumeOffset (s : Group Cb) (tp : TopicPartition) : Offset := (s.committed tp).getD 0

def step (s : Group Cb) : Action Cb → Option (Group Cb)
  | .append r =>
    if s.logEnd r.topicPartition ≤ r.offset ∧ r.offset < Int64.maxValue then
      some { s with
        log := s.log ++ [r]
        logEnd := Function.update s.logEnd r.topicPartition (r.offset + 1) }
    else none
  | .drop r => some { s with log := s.log.erase r }
  | .call m c =>
    let member := s.members m
    (fetch s.log member.position (member.client.returns c)).map fun position =>
      { s with
        requested := s.requested ++ entriesOf (member.client.commits c)
        members := Function.update s.members m (member.perform c position)
        handled := if endsBatch c then s.handled ++ member.current else s.handled }
  | .committed e =>
    if e ∈ s.requested then
      some { s with committed := Function.update s.committed e.key (some e.offset) }
    else none
  | .resume m tp =>
    let member := s.members m
    some { s with
      members := Function.update s.members m
        { member with position := Function.update member.position tp (s.resumeOffset tp) } }
  | .restart m =>
    some { s with
      members := Function.update s.members m ({ position := s.resumeOffset } : Member Cb) }

/-- A member whose commit failed neither polls nor closes after it. -/
def NoneAfterFailure (s : Group Cb) : Action Cb → Prop
  | .call m c => endsBatch c → (s.members m).failed = false
  | _ => True

instance (s : Group Cb) : ∀ a, Decidable (NoneAfterFailure s a)
  | .call _ _ => inferInstanceAs (Decidable (_ → _))
  | .append _ | .drop _ | .committed _ | .resume .. | .restart _ => .isTrue trivial

/-! ## §2. Fetching. -/

/-- A partition, and what was handled of all. -/
def feedOf (log : List ConsumerRecord) (logEnd : TopicPartition → Offset)
    (handled : List ConsumerRecord) (tp : TopicPartition) : Feed ConsumerRecord Offset :=
  ⟨log.filter (·.topicPartition = tp), logEnd tp, handled⟩

/-- No two records of a partition have one offset. -/
def UniqueOffsets (log : List ConsumerRecord) : Prop :=
  ∀ r ∈ log, ∀ r' ∈ log, r'.topicPartition = r.topicPartition → r'.offset = r.offset → r' = r

theorem uniqueOffsets_append {log : List ConsumerRecord} {r : ConsumerRecord}
    (h : UniqueOffsets log)
    (hnew : ∀ x ∈ log, x.topicPartition = r.topicPartition → x.offset ≠ r.offset) :
    UniqueOffsets (log ++ [r]) := by
  intro x hx y hy hkey hoff
  simp only [List.mem_append, List.mem_singleton] at hx hy
  cases hx with
  | inl hx =>
    cases hy with
    | inl hy => exact h x hx y hy hkey hoff
    | inr hy => exact absurd (hy ▸ hoff).symm (hnew x hx (hy ▸ hkey).symm)
  | inr hx =>
    cases hy with
    | inl hy => exact absurd (hx ▸ hoff) (hnew y hy (hx ▸ hkey))
    | inr hy => exact hy.trans hx.symm

theorem fetch_le {log batch : List ConsumerRecord} {position position' : TopicPartition → Offset}
    (hlog : ∀ r ∈ log, r.offset < Int64.maxValue) (h : fetch log position batch = some position')
    (tp : TopicPartition) : position tp ≤ position' tp := by
  induction batch generalizing position with
  | nil =>
    obtain rfl := Option.some.inj h
    exact le_refl _
  | cons r batch ih =>
    obtain ⟨hnext, h⟩ := Option.ite_none_right_eq_some.mp h
    refine le_trans ?_ (ih h)
    by_cases htp : tp = r.topicPartition
    · rw [htp, Function.update_self]
      have hself : r.offset < r.offset + 1 :=
        (Offset.lt_add_one_iff (hlog r hnext.1)).mpr (le_refl _)
      exact hnext.2.1.trans hself.le
    · rw [Function.update_of_ne htp]

/-- What was fetched is below the position. -/
theorem lt_of_fetch {log batch : List ConsumerRecord}
    {position position' : TopicPartition → Offset} (hlog : ∀ r ∈ log, r.offset < Int64.maxValue)
    (h : fetch log position batch = some position') {r : ConsumerRecord} (hr : r ∈ batch) :
    r.offset < position' r.topicPartition := by
  induction batch generalizing position with
  | nil => simp at hr
  | cons b batch ih =>
    obtain ⟨hnext, h⟩ := Option.ite_none_right_eq_some.mp h
    cases List.mem_cons.mp hr with
    | inl heq =>
      rw [heq]
      have hle := fetch_le hlog h b.topicPartition
      rw [Function.update_self] at hle
      exact ((Offset.lt_add_one_iff (hlog b hnext.1)).mpr (le_refl _)).trans_le hle
    | inr hr => exact ih h hr

/-- A fetch takes all records it passes. -/
theorem accounts_of_fetch {log batch handled : List ConsumerRecord}
    {logEnd position position' : TopicPartition → Offset} {inHand : ConsumerRecord → Prop}
    (hlog : ∀ r ∈ log, r.offset < logEnd r.topicPartition) (hunique : UniqueOffsets log)
    (h : fetch log position batch = some position') (tp : TopicPartition)
    (hall : (feedOf log logEnd handled tp).Accounts ConsumerRecord.offset (position tp) inHand) :
    (feedOf log logEnd handled tp).Accounts ConsumerRecord.offset (position' tp)
      fun r => inHand r ∨ r ∈ batch := by
  induction batch generalizing position inHand with
  | nil =>
    obtain rfl := Option.some.inj h
    exact hall.grows .refl fun r hr => .inr (.inl hr)
  | cons b batch ih =>
    obtain ⟨⟨hin, hle, hmin⟩, h⟩ := Option.ite_none_right_eq_some.mp h
    have hmax : b.offset < Int64.maxValue := (hlog b hin).trans_le (Int64.le_maxValue _)
    have hstep : (feedOf log logEnd handled tp).Accounts ConsumerRecord.offset
        (Function.update position b.topicPartition (b.offset + 1) tp)
        fun r => inHand r ∨ r = b := by
      by_cases htp : tp = b.topicPartition
      · subst htp
        rw [Function.update_self]
        -- the record read is the next one there is, so none is passed over
        refine hall.next b.offset (Offset.add_one_le (hlog b hin)) (fun r hr hge hlt => ?_)
          (fun r hr => .inl hr) (fun r hr heq => .inr ?_)
        · obtain ⟨hr, hkey⟩ := List.mem_filter.mp hr
          have hge' := hmin r hr (by simpa using hkey) hge
          exact le_antisymm ((Offset.lt_add_one_iff hmax).mp hlt) hge'
        · obtain ⟨hr, hkey⟩ := List.mem_filter.mp hr
          exact hunique b hin r hr (by simpa using hkey) heq
      · rw [Function.update_of_ne htp]
        exact hall.grows .refl fun r hr => .inr (.inl hr)
    refine (ih h hstep).grows .refl fun r hr => .inr ?_
    rw [or_assoc] at hr
    exact hr.imp_right List.mem_cons.mpr

/-! ## §3. The invariant. -/

/-- A partition, and what the group handled of all. -/
def Group.feed (s : Group Cb) : TopicPartition → Feed ConsumerRecord Offset :=
  feedOf s.log s.logEnd s.handled

/-- A member accounts for what is before its positions, and before the end of its batch. -/
structure Member.Sound (feed : TopicPartition → Feed ConsumerRecord Offset) (member : Member Cb) :
    Prop where
  auto : member.client.consumer.enableAutoCommit = true
  userAssignment : member.client.consumer.userAssignment = ∅
  /-- The next `poll` or `close` commits the batch. -/
  stored : member.failed = false →
    member.client.consumer.offsetsToStore = lastOffsets member.current
  all : ∀ tp, (feed tp).Accounts ConsumerRecord.offset (member.position tp) (· ∈ member.current)
  batch : ∀ r ∈ member.current, (feed r.topicPartition).Accounts ConsumerRecord.offset
    (r.offset + 1) (· ∈ member.current)

structure Sound (s : Group Cb) : Prop where
  log : ∀ r ∈ s.log, 0 ≤ r.offset ∧ r.offset < s.logEnd r.topicPartition
  logEnd : ∀ tp, 0 ≤ s.logEnd tp
  unique : UniqueOffsets s.log
  requested : ∀ e ∈ s.requested, (s.feed e.key).Covers ConsumerRecord.offset e.offset
  committed : ∀ tp, ∀ v ∈ s.committed tp, (s.feed tp).Covers ConsumerRecord.offset v
  members : ∀ m, (s.members m).Sound s.feed

theorem sound_start : Sound (start : Group Cb) where
  log := by simp [start]
  logEnd := fun _ => le_refl _
  unique := by simp [start, UniqueOffsets]
  requested := by simp [start]
  committed := by simp [start]
  members := fun _ => {
    auto := rfl
    userAssignment := rfl
    stored := fun _ => rfl
    all := fun _ => ⟨le_refl _, by simp [start, Group.feed, feedOf]⟩
    batch := by simp [start] }

/-- The partitions grow at their ends only. -/
structure Grows (s s' : Group Cb) : Prop where
  log : ∀ r ∈ s'.log, r ∈ s.log ∨ s.logEnd r.topicPartition ≤ r.offset
  logEnd : ∀ tp, s.logEnd tp ≤ s'.logEnd tp
  handled : ∀ r ∈ s.handled, r ∈ s'.handled

theorem Grows.of_eq {s s' : Group Cb} (hlog : s'.log = s.log) (hend : s'.logEnd = s.logEnd)
    (hhandled : ∀ r ∈ s.handled, r ∈ s'.handled) : Grows s s' :=
  ⟨fun _ hr => .inl (hlog ▸ hr), fun _ => hend ▸ le_refl _, hhandled⟩

theorem Grows.feed {s s' : Group Cb} (h : Grows s s') (tp : TopicPartition) :
    Feed.Grows ConsumerRecord.offset (s.feed tp) (s'.feed tp) := by
  refine ⟨fun r hr => ?_, h.logEnd tp, h.handled⟩
  obtain ⟨hr', hkey⟩ := List.mem_filter.mp hr
  obtain rfl : r.topicPartition = tp := by simpa using hkey
  exact (h.log r hr').imp_left fun hold => List.mem_filter.mpr ⟨hold, hkey⟩

theorem step_grows {s s' : Group Cb} {a : Action Cb} (h : step s a = some s') : Grows s s' := by
  cases a with
  | append r =>
    obtain ⟨⟨hend, hmax⟩, h⟩ := Option.ite_none_right_eq_some.mp h
    obtain rfl := Option.some.inj h
    refine ⟨fun x hx => ?_, fun tp => ?_, fun _ hx => hx⟩
    · cases List.mem_append.mp hx with
      | inl hx => exact .inl hx
      | inr hx => exact .inr (List.mem_singleton.mp hx ▸ hend)
    · show s.logEnd tp ≤ Function.update s.logEnd r.topicPartition (r.offset + 1) tp
      by_cases htp : tp = r.topicPartition
      · rw [htp, Function.update_self]
        exact hend.trans ((Offset.lt_add_one_iff hmax).mpr (le_refl _)).le
      · rw [Function.update_of_ne htp]
  | drop r =>
    obtain rfl := Option.some.inj h
    exact ⟨fun x hx => .inl (List.mem_of_mem_erase hx), fun _ => le_refl _, fun _ hx => hx⟩
  | call m c =>
    unfold step at h
    obtain ⟨position, -, rfl⟩ := Option.map_eq_some_iff.mp h
    -- the broker has what it had, and a batch that ends is handled on top
    refine .of_eq rfl rfl fun x hx => ?_
    show x ∈ if endsBatch c then s.handled ++ (s.members m).current else s.handled
    split
    next => exact List.mem_append_left _ hx
    next => exact hx
  | committed e =>
    obtain ⟨-, h⟩ := Option.ite_none_right_eq_some.mp h
    obtain rfl := Option.some.inj h
    exact .of_eq rfl rfl fun _ hx => hx
  | resume m tp =>
    obtain rfl := Option.some.inj h
    exact .of_eq rfl rfl fun _ hx => hx
  | restart m =>
    obtain rfl := Option.some.inj h
    exact .of_eq rfl rfl fun _ hx => hx

/-- A member that does nothing still accounts for what it did. -/
theorem Member.Sound.grows {s s' : Group Cb} {member : Member Cb} (h : member.Sound s.feed)
    (hg : Grows s s') : member.Sound s'.feed where
  auto := h.auto
  userAssignment := h.userAssignment
  stored := h.stored
  all := fun tp => (h.all tp).grows (hg.feed tp) fun _ hr => .inr hr
  batch := fun r hr => (h.batch r hr).grows (hg.feed r.topicPartition) fun _ hr => .inr hr

/-- Wherever a partition is resumed, all records before were handled. -/
theorem Sound.resume {s : Group Cb} (hs : Sound s) (tp : TopicPartition) :
    (s.feed tp).Covers ConsumerRecord.offset (s.resumeOffset tp) := by
  unfold Group.resumeOffset
  cases hc : s.committed tp with
  | some v => exact hs.committed tp v hc
  | none =>
    refine ⟨hs.logEnd tp, fun r hr hlt => absurd hlt (not_lt.mpr ?_)⟩
    exact (hs.log r (List.mem_filter.mp hr).1).1

/-- One member is new, and the others stand still. -/
theorem sound_members {s s' : Group Cb} {m : ℕ} {member : Member Cb} (hs : Sound s)
    (hg : Grows s s') (hmember : member.Sound s'.feed) (i : ℕ) :
    (Function.update s.members m member i).Sound s'.feed := by
  by_cases hi : i = m
  · rw [hi, Function.update_self]
    exact hmember
  · rw [Function.update_of_ne hi]
    exact (hs.members i).grows hg

/-! ## §4. A call. -/

/-- What the calls that end a batch leave stored before they return records. -/
theorem stored_serving {c : Client Cb} (hauto : c.consumer.enableAutoCommit = true)
    {call : GroupCall Cb} (hends : endsBatch call = true)
    (hthrows : commitThrows c.consumer call = false) :
    (c.serving call).1.consumer.offsetsToStore = ∅ := by
  cases call with
  | poll respErr events fetched =>
    unfold Client.serving
    rcases commitStored_cases c.consumer hauto .Async respErr with
      ⟨hnone, heq⟩ | ⟨-, m, result, ⟨rfl, rfl⟩ | ⟨rfl, e, rfl⟩, heq⟩ <;>
      simp only [heq]
    · exact hnone
    · simp [commitThrows, heq, Except.isOk, Except.toBool] at hthrows
  | close respErr events =>
    unfold Client.serving KafkaConsumer.close
    rcases commitStored_cases c.consumer hauto .Sync respErr with
      ⟨hnone, heq⟩ | ⟨-, m, result, ⟨rfl, rfl⟩ | ⟨rfl, e, rfl⟩, heq⟩ <;>
      simp only [heq]
    · exact hnone
    · simp [commitThrows, heq, Except.isOk, Except.toBool] at hthrows
  | subscribe topics cb answer rounds => exact absurd hends Bool.false_ne_true
  | unsubscribe answer rounds => exact absurd hends Bool.false_ne_true

/-- What is stored is left alone by the other calls. -/
theorem stored_of_goes_on {c : Client Cb} (hauto : c.consumer.enableAutoCommit = true)
    (hua : c.consumer.userAssignment = ∅) {call : GroupCall Cb} (hends : endsBatch call = false) :
    c.returns call = [] ∧ c.commits call = [] ∧
      (c.performGroup call).consumer.offsetsToStore = c.consumer.offsetsToStore := by
  have p := performed hauto hua call
  cases call with
  | poll respErr events fetched => exact absurd hends.symm Bool.false_ne_true
  | close respErr events => exact absurd hends.symm Bool.false_ne_true
  | subscribe topics cb answer rounds =>
    refine ⟨rfl, rfl, p.stored.trans ?_⟩
    unfold Client.serving
    dsimp only
    split_ifs <;> rfl
  | unsubscribe answer rounds =>
    refine ⟨rfl, rfl, p.stored.trans ?_⟩
    unfold Client.serving
    dsimp only
    split_ifs <;> rfl

/-- What a call asks to be committed is one past the last records of the batch stored. -/
theorem mem_entriesOf_commits {c : Client Cb} (hauto : c.consumer.enableAutoCommit = true)
    {current : List ConsumerRecord} (hstored : c.consumer.offsetsToStore = lastOffsets current)
    {call : GroupCall Cb} {e : RkTopicPartition} (he : e ∈ entriesOf (c.commits call)) :
    ∃ r ∈ lastRecord e.key current, e.offset = r.offset + 1 := by
  obtain ⟨request, hrequest, he⟩ := List.mem_flatMap.mp he
  rw [offsets_of_commits hauto hrequest, hstored] at he
  exact mem_batchCommit.mp he

/-- With the batch handled, nothing is in hand any more. -/
theorem accounts_handed {s : Group Cb} {tp : TopicPartition} {position : Offset}
    {current : List ConsumerRecord}
    (h : (s.feed tp).Accounts ConsumerRecord.offset position (· ∈ current)) :
    (feedOf s.log s.logEnd (s.handled ++ current) tp).Accounts ConsumerRecord.offset position
      fun _ => False := by
  refine h.grows ⟨fun r hr => .inl hr, le_refl _, fun r hr => ?_⟩ fun r hr => .inl ?_
  · exact List.mem_append_left _ hr
  · exact List.mem_append_right _ hr

/-- **A `poll` or a `close`** commits what was handled, and takes in hand what it fetches. -/
theorem Sound.endBatch {s s' : Group Cb} (hs : Sound s) {m : ℕ} {c : GroupCall Cb}
    (hends : endsBatch c = true) (hok : (s.members m).failed = false)
    (h : step s (.call m c) = some s') : Sound s' := by
  have hg : Grows s s' := step_grows h
  have hm : (s.members m).Sound s.feed := hs.members m
  have hstored := hm.stored hok
  have p := performed hm.auto hm.userAssignment c
  unfold step at h
  obtain ⟨position, hfetch, rfl⟩ := Option.map_eq_some_iff.mp h
  have hmax : ∀ r ∈ s.log, r.offset < Int64.maxValue := fun r hr =>
    (hs.log r hr).2.trans_le (Int64.le_maxValue _)
  rw [if_pos hends] at hg ⊢
  -- the batch before is handled, and the one fetched in hand
  have hall (tp : TopicPartition) :
      (feedOf s.log s.logEnd (s.handled ++ (s.members m).current) tp).Accounts
        ConsumerRecord.offset (position tp) (· ∈ (s.members m).client.returns c) := by
    have hfetched := accounts_of_fetch (fun r hr => (hs.log r hr).2) hs.unique hfetch tp
      (accounts_handed (hm.all tp))
    exact hfetched.grows .refl fun r hr => .inr (by simpa using hr)
  refine ⟨hs.log, hs.logEnd, hs.unique, fun e he => ?_,
    fun tp v hv => (hs.committed tp v hv).grows (hg.feed tp), sound_members hs hg ?_⟩
  · cases List.mem_append.mp he with
    | inl he => exact (hs.requested e he).grows (hg.feed e.key)
    | inr he =>
      obtain ⟨r, hr, heq⟩ := mem_entriesOf_commits hm.auto hstored he
      have hkey : r.topicPartition = e.key := key_of_lastFor hr
      have hbatch := accounts_handed (hm.batch r (mem_of_lastFor hr))
      rw [hkey] at hbatch
      rw [heq]
      exact hbatch.covers (le_refl _) fun _ hr => hr.elim
  · rw [Member.perform, if_pos hends]
    constructor
    case auto => exact p.auto.trans hm.auto
    case userAssignment => exact p.userAssignment.trans hm.userAssignment
    case stored =>
      intro hthrows
      show ((s.members m).client.performGroup c).consumer.offsetsToStore = _
      rw [p.stored, stored_serving hm.auto hends hthrows]
      rfl
    case all => exact hall
    case batch =>
      intro r hr
      exact (hall r.topicPartition).of_le (Offset.add_one_le (lt_of_fetch hmax hfetch hr))

/-- The other calls change neither what is stored nor what is in hand. -/
theorem Sound.goesOn {s s' : Group Cb} (hs : Sound s) {m : ℕ} {c : GroupCall Cb}
    (hends : endsBatch c = false) (h : step s (.call m c) = some s') : Sound s' := by
  have hg : Grows s s' := step_grows h
  have hm : (s.members m).Sound s.feed := hs.members m
  have p := performed hm.auto hm.userAssignment c
  obtain ⟨hreturns, hcommits, hstored⟩ := stored_of_goes_on hm.auto hm.userAssignment hends
  unfold step at h
  obtain ⟨position, -, rfl⟩ := Option.map_eq_some_iff.mp h
  refine ⟨hs.log, hs.logEnd, hs.unique, fun e he => ?_,
    fun tp v hv => (hs.committed tp v hv).grows (hg.feed tp), sound_members hs hg ?_⟩
  · have he' : e ∈ s.requested := by simpa [hcommits, entriesOf] using he
    exact (hs.requested e he').grows (hg.feed e.key)
  · rw [Member.perform, if_neg (by simp [hends])]
    have hm' := hm.grows hg
    exact ⟨p.auto.trans hm.auto, p.userAssignment.trans hm.userAssignment,
      fun hok => hstored.trans (hm.stored hok), hm'.all, hm'.batch⟩

/-! ## §5. Every run. -/

theorem sound_step (s : Group Cb) (a : Action Cb) (s' : Group Cb) (hs : Sound s)
    (hok : NoneAfterFailure s a) (h : step s a = some s') : Sound s' := by
  have hg : Grows s s' := step_grows h
  -- no step undoes what was covered before it, so a case is about what it adds
  have hmembers (m : ℕ) : (s.members m).Sound s'.feed := (hs.members m).grows hg
  have hrequested (e : RkTopicPartition) (he : e ∈ s.requested) :
      (s'.feed e.key).Covers ConsumerRecord.offset e.offset :=
    (hs.requested e he).grows (hg.feed e.key)
  have hcommitted (tp : TopicPartition) (v : Offset) (hv : v ∈ s.committed tp) :
      (s'.feed tp).Covers ConsumerRecord.offset v := (hs.committed tp v hv).grows (hg.feed tp)
  cases a with
  | call m c =>
    cases hends : endsBatch c with
    | true => exact hs.endBatch hends (hok hends) h
    | false => exact hs.goesOn hends h
  | append r =>
    obtain ⟨⟨hend, hmax⟩, h⟩ := Option.ite_none_right_eq_some.mp h
    obtain rfl := Option.some.inj h
    -- its offset is past all of its partition
    have hnonneg : 0 ≤ r.offset := (hs.logEnd _).trans hend
    have hself : r.offset < Function.update s.logEnd r.topicPartition (r.offset + 1)
        r.topicPartition := by
      rw [Function.update_self]
      exact (Offset.lt_add_one_iff hmax).mpr (le_refl _)
    refine ⟨fun x hx => ?_, fun tp => (hs.logEnd tp).trans (hg.logEnd tp), ?_, hrequested,
      hcommitted, hmembers⟩
    · cases List.mem_append.mp hx with
      | inl hx => exact ⟨(hs.log x hx).1, (hs.log x hx).2.trans_le (hg.logEnd _)⟩
      | inr hx =>
        rw [List.mem_singleton.mp hx]
        exact ⟨hnonneg, hself⟩
    · exact uniqueOffsets_append hs.unique fun x hx hkey =>
        ((hs.log x hx).2.trans_le (hkey ▸ hend)).ne
  | drop r =>
    obtain rfl := Option.some.inj h
    exact ⟨fun x hx => hs.log x (List.mem_of_mem_erase hx), hs.logEnd,
      fun x hx y hy => hs.unique x (List.mem_of_mem_erase hx) y (List.mem_of_mem_erase hy),
      hrequested, hcommitted, hmembers⟩
  | committed e =>
    -- however late: it was covered as it was asked for
    obtain ⟨he, h⟩ := Option.ite_none_right_eq_some.mp h
    obtain rfl := Option.some.inj h
    refine ⟨hs.log, hs.logEnd, hs.unique, hrequested, fun tp v hv => ?_, hmembers⟩
    have hv' : Function.update s.committed e.key (some e.offset) tp = some v := hv
    by_cases htp : tp = e.key
    · rw [htp, Function.update_self] at hv'
      rw [htp, ← Option.some.inj hv']
      exact hrequested e he
    · rw [Function.update_of_ne htp] at hv'
      exact hcommitted tp v hv'
  | resume m tp =>
    obtain rfl := Option.some.inj h
    refine ⟨hs.log, hs.logEnd, hs.unique, hrequested, hcommitted, sound_members hs hg ?_⟩
    refine ⟨(hmembers m).auto, (hmembers m).userAssignment, (hmembers m).stored, fun tp' => ?_,
      (hmembers m).batch⟩
    -- what is below the committed offset was handled, by whomever
    show (s.feed tp').Accounts ConsumerRecord.offset
      (Function.update (s.members m).position tp (s.resumeOffset tp) tp') _
    by_cases htp : tp' = tp
    · rw [htp, Function.update_self]
      exact (hs.resume tp).accounts
    · rw [Function.update_of_ne htp]
      exact (hs.members m).all tp'
  | restart m =>
    obtain rfl := Option.some.inj h
    refine ⟨hs.log, hs.logEnd, hs.unique, hrequested, hcommitted, sound_members hs hg ?_⟩
    exact ⟨rfl, rfl, fun _ => rfl, fun tp => (hs.resume tp).accounts, by simp⟩

theorem sound_run {actions : List (Action Cb)} {s : Group Cb}
    (hok : Along step NoneAfterFailure (start : Group Cb) actions)
    (hrun : run step start actions = some s) : Sound s :=
  run_invariant_along sound_step sound_start hok hrun

/-- The record at an offset of the partition "t"-0. -/
def recordAt (o : Offset) : ConsumerRecord := ⟨c_str "t", 0, o, RD_KAFKA_RESP_ERR_NO_ERROR⟩

/-- `t-0` is assigned, or revoked. -/
def rebalance (err : RespErr) : Rebalance := ⟨err, some [⟨c_str "t", 0, 0⟩], some "EAGER", {}⟩

/-- Member 0 polls two records.  While it handles them the partition moves on to member 1, which
polls them too, and one more; it is done with them first, and its commit takes effect first. -/
def movesOn : List (Action Unit) :=
  [.append (recordAt 0), .append (recordAt 1), .append (recordAt 2),
    .call 0 (.subscribe {"t"} none {} [[rebalance RD_KAFKA_RESP_ERR__ASSIGN_PARTITIONS]]),
    .call 0 (.poll RD_KAFKA_RESP_ERR_NO_ERROR [] (.ok [recordAt 0, recordAt 1])),
    .call 1 (.subscribe {"t"} none {} [[rebalance RD_KAFKA_RESP_ERR__ASSIGN_PARTITIONS]]),
    .resume 1 ⟨"t", 0⟩,
    .call 1 (.poll RD_KAFKA_RESP_ERR_NO_ERROR [] (.ok [recordAt 0, recordAt 1, recordAt 2])),
    .call 1 (.close RD_KAFKA_RESP_ERR_NO_ERROR []),
    .call 0 (.poll RD_KAFKA_RESP_ERR_NO_ERROR [rebalance RD_KAFKA_RESP_ERR__REVOKE_PARTITIONS]
      (.ok [])),
    .committed ⟨c_str "t", 0, 3⟩, .committed ⟨c_str "t", 0, 2⟩, .restart 1]

/-- The commit of record 0 is refused, and the `close` after it commits past record 1. -/
def closesAfterFailure : List (Action Unit) :=
  [.append (recordAt 0), .append (recordAt 1), .append (recordAt 2),
    .call 0 (.poll RD_KAFKA_RESP_ERR_NO_ERROR [] (.ok [recordAt 0])),
    .call 0 (.poll RD_KAFKA_RESP_ERR__TIMED_OUT [] (.ok [])),
    .call 0 (.close RD_KAFKA_RESP_ERR_NO_ERROR []), .committed ⟨c_str "t", 0, 2⟩, .restart 0]

/-- Record 1 is lost. -/
theorem failed_commit_loses : ∃ s, run step start closesAfterFailure = some s ∧
    recordAt 1 ∈ s.log ∧ recordAt 1 ∉ s.handled ∧ (s.members 0).position ⟨"t", 0⟩ = 2 := by
  have hrun : (run step start closesAfterFailure).map
      (fun s => (s.log, s.handled, (s.members 0).position ⟨"t", 0⟩))
      = some ([recordAt 0, recordAt 1, recordAt 2], [recordAt 0], 2) := by decide +kernel
  obtain ⟨s, hs, h⟩ := Option.map_eq_some_iff.mp hrun
  obtain ⟨hlog, hhandled, hposition⟩ :
      s.log = _ ∧ s.handled = _ ∧ (s.members 0).position ⟨"t", 0⟩ = 2 := by simpa using h
  exact ⟨s, hs, by simp [hlog], by rw [hhandled]; decide +kernel, hposition⟩

end ModernCppKafka.Consumer.AtLeastOnce
