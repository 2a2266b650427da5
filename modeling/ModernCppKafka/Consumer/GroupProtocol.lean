/-
  ModernCppKafka.Consumer.GroupProtocol — rebalances of a well-behaved group.

  A group keeps to one protocol.  `GroupProtocol.owned` is what a member owns after an event:
  an eager group hands out everything and takes everything back, a cooperative one adds and
  removes.  `onRebalance` finds out about the protocol at its first event and goes one of four
  ways from there; in each `_assignment` follows the group, and the user's callback sees every
  event once, in order, at a moment when its partitions are assigned.

  Main results:
    * `onRebalance_follows` — one event;
    * `run_follows`         — any sequence of events.
-/
import ModernCppKafka.Consumer.Assignment
import ModernCppKafka.Lib.Run

namespace ModernCppKafka.Consumer

open ModernCppKafka.Lib.Run

variable {Cb : Type}

/-! ## §1. The group. -/

inductive GroupProtocol where
  | Eager
  | Cooperative
  deriving DecidableEq, Repr

namespace GroupProtocol

/-- What `rd_kafka_rebalance_protocol` returns for it. -/
def name : GroupProtocol → String
  | .Eager => "EAGER"
  | .Cooperative => "COOPERATIVE"

/-- What a member owning `owned` owns after the event. -/
def owned (protocol : GroupProtocol) (owned : TopicPartitions) (r : Rebalance) : TopicPartitions :=
  let tps := getTopicPartitions r.partitions
  if r.err = RD_KAFKA_RESP_ERR__ASSIGN_PARTITIONS then
    match protocol with
    | .Eager => tps
    | .Cooperative => owned ∪ tps
  else
    match protocol with
    | .Eager => ∅
    | .Cooperative => owned \ tps

/-- The group delivers an ASSIGN or a REVOKE, the latter of partitions owned, and librdkafka
accepts the assign call it leads to.  (A cooperative ASSIGN names new partitions only; nothing
below depends on it.) -/
structure Delivers (protocol : GroupProtocol) (owned : TopicPartitions) (r : Rebalance) :
    Prop where
  known : r.Known
  protocol_eq : r.protocol = some protocol.name
  accepted : r.answer.toBool = false
  revoked : r.err = RD_KAFKA_RESP_ERR__REVOKE_PARTITIONS →
    getTopicPartitions r.partitions ⊆ owned
  assigned : r.err = RD_KAFKA_RESP_ERR__ASSIGN_PARTITIONS → protocol = .Cooperative →
    Disjoint (getTopicPartitions r.partitions) owned

instance deliversDecidable (protocol : GroupProtocol) (owned : TopicPartitions) (r : Rebalance) :
    Decidable (protocol.Delivers owned r) :=
  decidable_of_iff (r.Known ∧ r.protocol = some protocol.name ∧ r.answer.toBool = false ∧
      (r.err = RD_KAFKA_RESP_ERR__REVOKE_PARTITIONS → getTopicPartitions r.partitions ⊆ owned) ∧
      (r.err = RD_KAFKA_RESP_ERR__ASSIGN_PARTITIONS → protocol = .Cooperative →
        Disjoint (getTopicPartitions r.partitions) owned))
    ⟨fun ⟨h₁, h₂, h₃, h₄, h₅⟩ => ⟨h₁, h₂, h₃, h₄, h₅⟩,
      fun h => ⟨h.known, h.protocol_eq, h.accepted, h.revoked, h.assigned⟩⟩

/-- The member's side, as a machine. -/
def step (protocol : GroupProtocol) (owned : TopicPartitions) (r : Rebalance) :
    Option TopicPartitions :=
  some (protocol.owned owned r)

end GroupProtocol

/-- What the event is for the user. -/
def Rebalance.eventType (r : Rebalance) : RebalanceEventType :=
  if r.err = RD_KAFKA_RESP_ERR__ASSIGN_PARTITIONS then .PartitionsAssigned else .PartitionsRevoked

/-- An event served, and the invocations of the callback it leads to added to the log; an
exception ends the run. -/
def deliver (s : Client Cb × List (Invocation Cb)) (r : Rebalance) :
    Option (Client Cb × List (Invocation Cb)) :=
  match s.1.onRebalance r with
  | (c, invocations, .ok ()) => some (c, s.2 ++ invocations)
  | (_, _, .error _) => none

/-! ## §2. One event. -/

/-- The consumer does not know the protocol yet, or knows the right one. -/
def KafkaConsumer.Knows (q : KafkaConsumer Cb) (protocol : GroupProtocol) : Prop :=
  ∀ coop ∈ q.cooperativeEnabled, coop = (protocol = .Cooperative : Bool)

namespace Client

theorem noteRebalance_coop {q : KafkaConsumer Cb} {protocol : GroupProtocol}
    (hq : q.Knows protocol) {r : Rebalance} (hr : r.protocol = some protocol.name) :
    (noteRebalance q r).cooperativeEnabled = some (protocol = .Cooperative : Bool) := by
  have hname : decide (protocol.name = "COOPERATIVE") = (protocol = .Cooperative : Bool) := by
    cases protocol <;> decide
  unfold noteRebalance
  -- the first event tells, later ones are not asked
  cases hc : q.cooperativeEnabled with
  | none => simp [hr, hname]
  | some coop => simp [hq coop hc]

/-- An accepted ASSIGN changes the assignment, then invokes the callback. -/
theorem onRebalance_assign {c : Client Cb} {r : Rebalance}
    (hassign : r.err = RD_KAFKA_RESP_ERR__ASSIGN_PARTITIONS) (hok : r.answer.toBool = false) :
    ∃ c', c.onRebalance r
      = (c', invoke c'.consumer .PartitionsAssigned (getTopicPartitions r.partitions), .ok ()) := by
  rcases (c.modify (noteRebalance · r)).changeAssignment_cases
    (if (c.modify (noteRebalance · r)).consumer.isCooperativeEnabled then .IncrementalAssign
      else .Assign) (getTopicPartitions r.partitions) r.answer with ⟨herr, -⟩ | ⟨-, heq⟩
  · simp [hok] at herr
  · rw [onRebalance, if_pos hassign]
    dsimp only
    rw [heq]
    exact ⟨_, rfl⟩

/-- An accepted REVOKE invokes the callback, then changes the assignment. -/
theorem onRebalance_revoke {c : Client Cb} {r : Rebalance}
    (hrevoke : r.err = RD_KAFKA_RESP_ERR__REVOKE_PARTITIONS) (hok : r.answer.toBool = false) :
    ∃ c', c.onRebalance r = (c', invoke (noteRebalance c.consumer r) .PartitionsRevoked
      (getTopicPartitions r.partitions), .ok ()) := by
  have hassign : r.err ≠ RD_KAFKA_RESP_ERR__ASSIGN_PARTITIONS := by
    rw [hrevoke]
    decide
  have hresult : throwIfWithError r.answer.copy = .ok () := throwIfWithError_of_false hok
  rw [onRebalance, if_neg hassign, if_pos hrevoke]
  dsimp only
  rw [changeAssignment_result, hresult]
  exact ⟨_, rfl⟩

/-- What the group's view is in the protocol the consumer comes to know. -/
theorem membership_after {q : KafkaConsumer Cb} {protocol : GroupProtocol}
    (hq : q.Knows protocol) {r : Rebalance} {owned : TopicPartitions}
    (hr : protocol.Delivers owned r) (owned' : TopicPartitions) :
    Membership.after ⟨q.cooperativeEnabled, owned'⟩ r
      = ⟨some (protocol = .Cooperative : Bool), protocol.owned owned' r⟩ := by
  have hcoop : q.cooperativeEnabled.or (r.protocol.map (· = "COOPERATIVE"))
      = some (protocol = .Cooperative : Bool) := noteRebalance_coop hq hr.protocol_eq
  rw [Membership.after, hcoop]
  unfold GroupProtocol.owned
  dsimp only
  by_cases hassign : r.err = RD_KAFKA_RESP_ERR__ASSIGN_PARTITIONS
  · rw [if_pos hassign, if_pos hassign]
    cases protocol <;> rfl
  · rw [if_neg hassign, if_neg hassign, if_pos (hr.known.resolve_left hassign)]
    cases protocol <;> rfl

/-- **One event**: the consumer comes to know the protocol, `_assignment` follows the group,
and the callback, if set, is invoked once with the partitions of the event, all of them in
`_assignment`: after an assignment, before a revocation. -/
theorem onRebalance_follows {c : Client Cb} {protocol : GroupProtocol}
    (hq : c.consumer.Knows protocol) {r : Rebalance}
    (hr : protocol.Delivers c.consumer.assignment r) :
    ∃ c' invocations, c.onRebalance r = (c', invocations, .ok ()) ∧
      c'.consumer.Knows protocol ∧
      c'.consumer.assignment = protocol.owned c.consumer.assignment r ∧
      c'.consumer.rebalanceCb = c.consumer.rebalanceCb ∧
      invocations.map (fun i => (i.rebalanceCb, i.eventType, i.topicPartitions))
        = c.consumer.rebalanceCb.toList.map
            (fun cb => (cb, r.eventType, getTopicPartitions r.partitions)) ∧
      ∀ i ∈ invocations, i.topicPartitions ⊆ i.assignment := by
  -- `_assignment` follows the protocol the consumer knows after the event
  have hmem := c.onRebalance_membership r
  rw [membership, membership, membership_after hq hr] at hmem
  have hcoop : (c.onRebalance r).1.consumer.cooperativeEnabled = _ :=
    congrArg Membership.coop hmem
  have hown : (c.onRebalance r).1.consumer.assignment = _ := congrArg Membership.owned hmem
  have hcb := (c.onRebalance_user r).rebalanceCb
  have hknows : (c.onRebalance r).1.consumer.Knows protocol := by
    intro coop hc
    rw [hcoop] at hc
    exact (Option.some.inj hc).symm
  by_cases hassign : r.err = RD_KAFKA_RESP_ERR__ASSIGN_PARTITIONS
  · obtain ⟨c', heq⟩ := onRebalance_assign (c := c) hassign hr.accepted
    rw [heq] at hown hcb hknows
    refine ⟨c', _, heq, hknows, hown, hcb, ?_, ?_⟩
    · rw [invoke, hcb, List.map_map, Rebalance.eventType, if_pos hassign]
      rfl
    · -- the callback finds the partitions added
      intro i hi
      obtain ⟨cb, -, rfl⟩ := List.mem_map.mp hi
      dsimp only
      rw [hown]
      unfold GroupProtocol.owned
      rw [if_pos hassign]
      cases protocol with
      | Eager => exact Finset.Subset.refl _
      | Cooperative => exact Finset.subset_union_right
  · have hrevoke := hr.known.resolve_left hassign
    obtain ⟨c', heq⟩ := onRebalance_revoke (c := c) hrevoke hr.accepted
    rw [heq] at hown hcb hknows
    refine ⟨c', _, heq, hknows, hown, hcb, ?_, ?_⟩
    · rw [invoke, List.map_map, Rebalance.eventType, if_neg hassign]
      rfl
    · -- the callback finds the partitions not taken yet
      intro i hi
      obtain ⟨cb, -, rfl⟩ := List.mem_map.mp hi
      exact hr.revoked hrevoke

end Client

/-! ## §3. Every sequence of events. -/

/-- What a callback is to be told of the events. -/
def announced (rebalanceCb : Option Cb) (events : List Rebalance) :
    List (Cb × RebalanceEventType × TopicPartitions) :=
  rebalanceCb.toList.flatMap fun cb =>
    events.map fun r => (cb, r.eventType, getTopicPartitions r.partitions)

theorem announced_cons (rebalanceCb : Option Cb) (r : Rebalance) (rs : List Rebalance) :
    announced rebalanceCb (r :: rs)
      = rebalanceCb.toList.map (fun cb => (cb, r.eventType, getTopicPartitions r.partitions))
        ++ announced rebalanceCb rs := by
  cases rebalanceCb <;> simp [announced]

/-- The invocations as the user sees them. -/
def Invocation.seen (i : Invocation Cb) : Cb × RebalanceEventType × TopicPartitions :=
  (i.rebalanceCb, i.eventType, i.topicPartitions)

/-- What a run of events the group delivers adds to the log, and does to the consumer. -/
theorem run_deliver {protocol : GroupProtocol} {events : List Rebalance} {c : Client Cb}
    (log : List (Invocation Cb)) (hq : c.consumer.Knows protocol)
    (hevents : Along protocol.step protocol.Delivers c.consumer.assignment events) :
    ∃ c' more, run deliver (c, log) events = some (c', log ++ more) ∧
      c'.consumer.assignment = events.foldl protocol.owned c.consumer.assignment ∧
      more.map Invocation.seen = announced c.consumer.rebalanceCb events ∧
      ∀ i ∈ more, i.topicPartitions ⊆ i.assignment := by
  induction events generalizing c log with
  | nil =>
    refine ⟨c, [], by simp, rfl, ?_, by simp⟩
    cases c.consumer.rebalanceCb <;> rfl
  | cons r rs ih =>
    obtain ⟨c₁, invocations, heq, hq₁, hown, hcb, hseen, hin⟩ :=
      Client.onRebalance_follows hq hevents.1
    have hrest : Along protocol.step protocol.Delivers c₁.consumer.assignment rs :=
      hown ▸ hevents.2 _ rfl
    obtain ⟨c', more, hrun, hown', hseen', hin'⟩ := ih (log ++ invocations) hq₁ hrest
    refine ⟨c', invocations ++ more, ?_, ?_, ?_, ?_⟩
    · rw [run_cons, deliver, heq, Option.bind_some, hrun, List.append_assoc]
    · rw [hown', hown, List.foldl_cons]
    · rw [List.map_append, hseen', hcb, announced_cons]
      exact congrArg (· ++ _) hseen
    · intro i hi
      rcases List.mem_append.mp hi with hi | hi
      · exact hin i hi
      · exact hin' i hi

/-- **`_assignment` follows the group** after every event of any sequence the group delivers,
in both protocols; the callback, if set, is invoked once for each event, in order, with exactly
its partitions; and whenever it is, they are all in `_assignment`. -/
theorem run_follows (protocol : GroupProtocol) (c : Client Cb) (events : List Rebalance)
    (hq : c.consumer.Knows protocol)
    (hevents : Along protocol.step protocol.Delivers c.consumer.assignment events) :
    ∀ pre, pre <+: events → ∃ c' log, run deliver (c, []) pre = some (c', log) ∧
      c'.consumer.assignment = pre.foldl protocol.owned c.consumer.assignment ∧
      log.map Invocation.seen = announced c.consumer.rebalanceCb pre ∧
      ∀ i ∈ log, i.topicPartitions ⊆ i.assignment := by
  rintro pre ⟨post, rfl⟩
  obtain ⟨c', more, hrun, hown, hseen, hin⟩ :=
    run_deliver [] hq (Along.append.mp hevents).1
  exact ⟨c', more, hrun, hown, hseen, hin⟩

/-- A cooperative group hands out `t-0` and `t-1` one by one, and takes `t-0` back. -/
def cooperativeEvents : List Rebalance :=
  [⟨RD_KAFKA_RESP_ERR__ASSIGN_PARTITIONS, some [⟨c_str "t", 0, RD_KAFKA_OFFSET_INVALID⟩],
      some "COOPERATIVE", {}⟩,
    ⟨RD_KAFKA_RESP_ERR__ASSIGN_PARTITIONS, some [⟨c_str "t", 1, RD_KAFKA_OFFSET_INVALID⟩],
      some "COOPERATIVE", {}⟩,
    ⟨RD_KAFKA_RESP_ERR__REVOKE_PARTITIONS, some [⟨c_str "t", 0, RD_KAFKA_OFFSET_INVALID⟩],
      some "COOPERATIVE", {}⟩]

/-- A consumer with a callback, and no event served yet. -/
def listening : Client Unit := { consumer := { rebalanceCb := some () } }

theorem run_follows_cooperative :
    ∃ c' log, run deliver (listening, []) cooperativeEvents = some (c', log) ∧
      c'.consumer.assignment = {⟨"t", 1⟩} ∧ log.length = 3 := by
  have hq : listening.consumer.Knows .Cooperative := by simp [KafkaConsumer.Knows, listening]
  have hevents : Along (GroupProtocol.step .Cooperative) (GroupProtocol.Delivers .Cooperative)
      listening.consumer.assignment cooperativeEvents := by
    decide +kernel
  obtain ⟨c', log, hrun, hown, hseen, -⟩ :=
    run_follows .Cooperative listening _ hq hevents _ List.prefix_rfl
  have hlen := congrArg List.length hseen
  rw [List.length_map] at hlen
  refine ⟨c', log, hrun, hown.trans (by decide +kernel), hlen.trans ?_⟩
  simp [announced, listening, cooperativeEvents]

end ModernCppKafka.Consumer
