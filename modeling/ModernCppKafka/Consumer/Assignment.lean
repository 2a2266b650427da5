/-
  ModernCppKafka.Consumer.Assignment — `subscribe`, `unsubscribe`, `assign` and rebalances.

  A `Client` is the consumer and the part of librdkafka behind it that these operations change.
  librdkafka's answer to each call is an argument; where an operation waits for a rebalance, so
  are the events each turn of the loop serves.  A user callback is recorded and assumed to come
  back without subscribing or assigning on its own.

  `Membership` is the group protocol's own view of the assignment.

  Main results:
    * `onRebalance_membership` — `_assignment` follows the protocol, whatever librdkafka answers;
    * `onRebalance_rk`         — librdkafka's assignment follows it where the answer is good;
    * `awaitPending_served`    — a wait serves the first of the events that arrive.
-/
import ModernCppKafka.Consumer.State

namespace ModernCppKafka.Consumer

/-! ## §1. librdkafka's part. -/

/-- The topics subscribed to and the partitions assigned, as librdkafka has them. -/
@[ext] structure RdKafka where
  subscription : Topics := ∅
  assignment : TopicPartitions := ∅
  deriving DecidableEq

namespace RdKafka

/-- A call whose answer is an error changes nothing. -/
def unlessError (rk : RdKafka) (answer : Error) (rk' : RdKafka) : RdKafka :=
  if answer.toBool then rk else rk'

def rd_kafka_subscribe (rk : RdKafka) (answer : Error) (topics : RkTopicPartitionList) : RdKafka :=
  rk.unlessError answer { rk with subscription := getTopics (some topics) }

def rd_kafka_unsubscribe (rk : RdKafka) (answer : Error) : RdKafka :=
  rk.unlessError answer { rk with subscription := ∅ }

/-- A null pointer clears the assignment. -/
def rd_kafka_assign (rk : RdKafka) (answer : Error) (partitions : Option RkTopicPartitionList) :
    RdKafka :=
  rk.unlessError answer { rk with assignment := getTopicPartitions partitions }

def rd_kafka_incremental_assign (rk : RdKafka) (answer : Error)
    (partitions : RkTopicPartitionList) : RdKafka :=
  rk.unlessError answer
    { rk with assignment := rk.assignment ∪ getTopicPartitions (some partitions) }

def rd_kafka_incremental_unassign (rk : RdKafka) (answer : Error)
    (partitions : RkTopicPartitionList) : RdKafka :=
  rk.unlessError answer
    { rk with assignment := rk.assignment \ getTopicPartitions (some partitions) }

end RdKafka

/-- A consumer and its librdkafka handle. -/
structure Client (Cb : Type) where
  consumer : KafkaConsumer Cb := {}
  rk : RdKafka := {}

/-! ## §2. The operations. -/

def RD_KAFKA_RESP_ERR__ASSIGN_PARTITIONS : RespErr := -175
def RD_KAFKA_RESP_ERR__REVOKE_PARTITIONS : RespErr := -174

inductive PartitionsRebalanceEvent where
  | Assign
  | Revoke
  | IncrementalAssign
  | IncrementalUnassign
  deriving DecidableEq, Repr

inductive RebalanceEventType where
  | PartitionsAssigned
  | PartitionsRevoked
  deriving DecidableEq, Repr

/-- A rebalance event as librdkafka delivers it: the event code and partitions handed to the
callback, the protocol `rd_kafka_rebalance_protocol` names, and the answer to the assign call the
callback makes. -/
structure Rebalance where
  err : RespErr
  partitions : Option RkTopicPartitionList
  protocol : Option String
  answer : Error

/-- One call of the user's rebalance callback, and the `_assignment` it finds. -/
structure Invocation (Cb : Type) where
  rebalanceCb : Cb
  eventType : RebalanceEventType
  topicPartitions : TopicPartitions
  assignment : TopicPartitions
  deriving DecidableEq

/-- An exception, by the statement that throws it. -/
inductive Failure where
  /-- `subscribe` after `assign`, or the other way round. -/
  | misuse (e : KafkaException)
  /-- A librdkafka call returned an error. -/
  | rdKafka (e : KafkaException)
  | timedOut (e : KafkaException)
  deriving DecidableEq

/-- The loop over `tps` that emplaces the ones not found. -/
def emplaceNew (assignment tps : TopicPartitions) : TopicPartitions :=
  tps.sort.foldl (fun acc tp => if tp ∈ acc then acc else insert tp acc) assignment

/-- The loop over `tps` that erases the ones found. -/
def eraseFound (assignment tps : TopicPartitions) : TopicPartitions :=
  tps.sort.foldl (fun acc tp => if tp ∈ acc then acc.erase tp else acc) assignment

variable {Cb : Type}

def KafkaConsumer.isCooperativeEnabled (q : KafkaConsumer Cb) : Bool :=
  q.cooperativeEnabled = some true

namespace Client

/-- Change the members of the consumer. -/
def modify (c : Client Cb) (f : KafkaConsumer Cb → KafkaConsumer Cb) : Client Cb :=
  { c with consumer := f c.consumer }

/-- `answer` is the error the librdkafka call of the event's kind returns. -/
def changeAssignment (c : Client Cb) (event : PartitionsRebalanceEvent) (tps : TopicPartitions)
    (answer : Error) : Client Cb × Except KafkaException Unit :=
  let rk_tps := createRkTopicPartitionListOfPartitions tps
  let result := answer.copy
  match event with
  | .Assign =>
    ({ consumer := { c.consumer with assignment := tps }
       rk := c.rk.rd_kafka_assign answer (some rk_tps) }, throwIfWithError result)
  | .Revoke =>
    ({ consumer := { c.consumer with assignment := ∅ }
       rk := c.rk.rd_kafka_assign answer none }, throwIfWithError result)
  | .IncrementalAssign =>
    ({ consumer := { c.consumer with assignment := emplaceNew c.consumer.assignment tps }
       rk := c.rk.rd_kafka_incremental_assign answer rk_tps }, throwIfWithError result)
  | .IncrementalUnassign =>
    ({ consumer := { c.consumer with assignment := eraseFound c.consumer.assignment tps }
       rk := c.rk.rd_kafka_incremental_unassign answer rk_tps }, throwIfWithError result)

/-- The members `onRebalance` sets before it changes the assignment. -/
def noteRebalance (q : KafkaConsumer Cb) (r : Rebalance) : KafkaConsumer Cb :=
  { q with
    cooperativeEnabled := q.cooperativeEnabled.or (r.protocol.map (· = "COOPERATIVE"))
    pendingEvent :=
      if r.err = RD_KAFKA_RESP_ERR__ASSIGN_PARTITIONS
            ∧ q.pendingEvent = some .PartitionsAssignment
          ∨ r.err = RD_KAFKA_RESP_ERR__REVOKE_PARTITIONS
            ∧ q.pendingEvent = some .PartitionsRevocation then none
      else q.pendingEvent }

/-- The call of `_rebalanceCb`, if set. -/
def invoke (q : KafkaConsumer Cb) (eventType : RebalanceEventType) (tps : TopicPartitions) :
    List (Invocation Cb) :=
  q.rebalanceCb.toList.map fun cb => ⟨cb, eventType, tps, q.assignment⟩

def onRebalance (c : Client Cb) (r : Rebalance) :
    Client Cb × List (Invocation Cb) × Except KafkaException Unit :=
  let tps := getTopicPartitions r.partitions
  if r.err = RD_KAFKA_RESP_ERR__ASSIGN_PARTITIONS then
    let c := c.modify (noteRebalance · r)
    match c.changeAssignment
        (if c.consumer.isCooperativeEnabled then .IncrementalAssign else .Assign) tps r.answer with
    | (c, .error e) => (c, [], .error e)
    | (c, .ok ()) => (c, invoke c.consumer .PartitionsAssigned tps, .ok ())
  else if r.err = RD_KAFKA_RESP_ERR__REVOKE_PARTITIONS then
    let c := c.modify (noteRebalance · r)
    let invocations := invoke c.consumer .PartitionsRevoked tps
    let coop := c.consumer.isCooperativeEnabled
    match c.changeAssignment (if coop then .IncrementalUnassign else .Revoke)
        (if coop then tps else ∅) r.answer with
    | (c, result) => (c, invocations, result)
  else
    -- unknown event: logged only
    (c, [], .ok ())

/-- Serve the events in turn; an exception ends it. -/
def serve (c : Client Cb) : List Rebalance →
    Client Cb × List (Invocation Cb) × Except KafkaException Unit
  | [] => (c, [], .ok ())
  | r :: rs =>
    match c.onRebalance r with
    | (c, invocations, .error e) => (c, invocations, .error e)
    | (c, invocations, .ok ()) =>
      match c.serve rs with
      | (c, invocations', result) => (c, invocations ++ invocations', result)

/-- The wait for `_pendingEvent` to be cleared, one list of events for each `rd_kafka_poll` until
the time is up; the answer tells whether it was. -/
def awaitPending (c : Client Cb) : List (List Rebalance) →
    Client Cb × List (Invocation Cb) × Except KafkaException Bool
  | [] => (c, [], .ok false)
  | round :: rounds =>
    match c.serve round with
    | (c, invocations, .error e) => (c, invocations, .error e)
    | (c, invocations, .ok ()) =>
      if c.consumer.pendingEvent = none then (c, invocations, .ok true)
      else
        match c.awaitPending rounds with
        | (c, invocations', result) => (c, invocations ++ invocations', result)

/-- The loop at the end of `subscribe` and `unsubscribe`, and the exception it ends in when the
time is up. -/
def waitFor (c : Client Cb) (event : PendingEvent) (rounds : List (List Rebalance))
    (timedOut : String) : Client Cb × List (Invocation Cb) × Except Failure Unit :=
  match (c.modify ({ · with pendingEvent := some event })).awaitPending rounds with
  | (c, invocations, .error e) => (c, invocations, .error (.rdKafka e))
  | (c, invocations, .ok true) => (c, invocations, .ok ())
  | (c, invocations, .ok false) =>
    (c.modify ({ · with pendingEvent := none }), invocations,
      .error (.timedOut (.ofError (.ofMessage RD_KAFKA_RESP_ERR__TIMED_OUT timedOut false))))

def subscribe (c : Client Cb) (topics : Topics) (rebalanceCallback : Option Cb) (answer : Error)
    (rounds : List (List Rebalance)) : Client Cb × List (Invocation Cb) × Except Failure Unit :=
  if c.consumer.userAssignment ≠ ∅ then
    (c, [], .error (.misuse (.ofError (.ofMessage RD_KAFKA_RESP_ERR__FAIL
      ("Unexpected Operation! Once assign() was used, "
        ++ "subscribe() should not be called any more!") false))))
  else if c.consumer.isCooperativeEnabled ∧ topics = c.consumer.userSubscription then
    (c, [], .ok ())
  else
    let c : Client Cb :=
      { consumer :=
          { c.consumer with userSubscription := topics, rebalanceCb := rebalanceCallback }
        rk := c.rk.rd_kafka_subscribe answer (createRkTopicPartitionListOfTopics topics) }
    match throwIfWithError answer with
    | .error e => (c, [], .error (.rdKafka e))
    | .ok () => c.waitFor .PartitionsAssignment rounds "subscribe() timed out!"

def unsubscribe (c : Client Cb) (answer : Error) (rounds : List (List Rebalance)) :
    Client Cb × List (Invocation Cb) × Except Failure Unit :=
  if c.consumer.userSubscription = ∅ ∧ c.consumer.userAssignment = ∅ then (c, [], .ok ())
  else if c.consumer.userAssignment ≠ ∅ then
    match c.changeAssignment
        (if c.consumer.isCooperativeEnabled then .IncrementalUnassign else .Revoke)
        c.consumer.userAssignment answer with
    | (c, .error e) => (c, [], .error (.rdKafka e))
    | (c, .ok ()) => (c.modify ({ · with userAssignment := ∅ }), [], .ok ())
  else
    let c : Client Cb :=
      { consumer := { c.consumer with userSubscription := ∅ }
        rk := c.rk.rd_kafka_unsubscribe answer }
    match throwIfWithError answer with
    | .error e => (c, [], .error (.rdKafka e))
    | .ok () => c.waitFor .PartitionsRevocation rounds "unsubscribe() timed out!"

def assign (c : Client Cb) (topicPartitions : TopicPartitions) (answer : Error) :
    Client Cb × List (Invocation Cb) × Except Failure Unit :=
  if c.consumer.userSubscription ≠ ∅ then
    (c, [], .error (.misuse (.ofError (.ofMessage RD_KAFKA_RESP_ERR__FAIL
      ("Unexpected Operation! Once subscribe() was used, "
        ++ "assign() should not be called any more!") false))))
  else
    match (c.modify ({ · with userAssignment := topicPartitions })).changeAssignment
        (if c.consumer.isCooperativeEnabled then .IncrementalAssign else .Assign)
        topicPartitions answer with
    | (c, .error e) => (c, [], .error (.rdKafka e))
    | (c, .ok ()) => (c, [], .ok ())

end Client

/-! ## §3. Changing the assignment. -/

/-- What an event of the kind makes of an assignment. -/
def PartitionsRebalanceEvent.apply (event : PartitionsRebalanceEvent)
    (owned tps : TopicPartitions) : TopicPartitions :=
  match event with
  | .Assign => tps
  | .Revoke => ∅
  | .IncrementalAssign => owned ∪ tps
  | .IncrementalUnassign => owned \ tps

theorem emplaceNew_eq (assignment tps : TopicPartitions) :
    emplaceNew assignment tps = assignment ∪ tps := by
  have hfold : ∀ (l : List TopicPartition) (acc : TopicPartitions),
      l.foldl (fun acc tp => if tp ∈ acc then acc else insert tp acc) acc
        = acc ∪ l.toFinset := by
    intro l
    induction l with
    | nil => simp
    | cons tp l ih =>
      intro acc
      have hinsert : (if tp ∈ acc then acc else insert tp acc) = insert tp acc := by
        split
        next h => exact (Finset.insert_eq_of_mem h).symm
        next => rfl
      rw [List.foldl_cons, ih, hinsert, List.toFinset_cons, Finset.insert_union,
        Finset.union_insert]
  rw [emplaceNew, hfold, Finset.sort_toFinset]

theorem eraseFound_eq (assignment tps : TopicPartitions) :
    eraseFound assignment tps = assignment \ tps := by
  have hfold : ∀ (l : List TopicPartition) (acc : TopicPartitions),
      l.foldl (fun acc tp => if tp ∈ acc then acc.erase tp else acc) acc
        = acc \ l.toFinset := by
    intro l
    induction l with
    | nil => simp
    | cons tp l ih =>
      intro acc
      have herase : (if tp ∈ acc then acc.erase tp else acc) = acc.erase tp := by
        split
        next => rfl
        next h => exact (Finset.erase_eq_of_notMem h).symm
      rw [List.foldl_cons, ih, herase, List.toFinset_cons]
      ext x
      simp only [Finset.mem_sdiff, Finset.mem_erase, Finset.mem_insert]
      tauto
  rw [eraseFound, hfold, Finset.sort_toFinset]

namespace Client

theorem changeAssignment_consumer (c : Client Cb) (event : PartitionsRebalanceEvent)
    (tps : TopicPartitions) (answer : Error) :
    (c.changeAssignment event tps answer).1.consumer =
      { c.consumer with assignment := event.apply c.consumer.assignment tps } := by
  cases event <;>
    simp only [changeAssignment, PartitionsRebalanceEvent.apply, emplaceNew_eq, eraseFound_eq]

theorem changeAssignment_result (c : Client Cb) (event : PartitionsRebalanceEvent)
    (tps : TopicPartitions) (answer : Error) :
    (c.changeAssignment event tps answer).2 = throwIfWithError answer.copy := by
  cases event <;> rfl

/-- It throws when librdkafka refuses, after the members are set. -/
theorem changeAssignment_cases (c : Client Cb) (event : PartitionsRebalanceEvent)
    (tps : TopicPartitions) (answer : Error) :
    (answer.toBool = true ∧ c.changeAssignment event tps answer =
      ((c.changeAssignment event tps answer).1, .error (.ofError answer.copy))) ∨
    (answer.toBool = false ∧ c.changeAssignment event tps answer =
      ((c.changeAssignment event tps answer).1, .ok ())) := by
  have hres := c.changeAssignment_result event tps answer
  cases herr : answer.toBool with
  | true => exact .inl ⟨rfl, Prod.ext rfl (hres.trans (throwIfWithError_of_true herr))⟩
  | false => exact .inr ⟨rfl, Prod.ext rfl (hres.trans (throwIfWithError_of_false herr))⟩

theorem changeAssignment_rk (c : Client Cb) (event : PartitionsRebalanceEvent)
    {tps : TopicPartitions} (h : ∀ tp ∈ tps, NulFree tp.first) (answer : Error) :
    (c.changeAssignment event tps answer).1.rk =
      c.rk.unlessError answer { c.rk with assignment := event.apply c.rk.assignment tps } := by
  cases event <;>
    simp only [changeAssignment, PartitionsRebalanceEvent.apply, RdKafka.rd_kafka_assign,
      RdKafka.rd_kafka_incremental_assign, RdKafka.rd_kafka_incremental_unassign,
      getTopicPartitions_createRk h]
  rfl

end Client

/-! ## §4. The group protocol's view. -/

/-- Whether the protocol is cooperative, if known, and the partitions owned. -/
@[ext] structure Membership where
  coop : Option Bool
  owned : TopicPartitions
  deriving DecidableEq

/-- The event is one of the two that change the assignment. -/
def Rebalance.Known (r : Rebalance) : Prop :=
  r.err = RD_KAFKA_RESP_ERR__ASSIGN_PARTITIONS ∨ r.err = RD_KAFKA_RESP_ERR__REVOKE_PARTITIONS

instance (r : Rebalance) : Decidable r.Known := inferInstanceAs (Decidable (_ ∨ _))

/-- librdkafka refuses the assign call the event leads to. -/
def Rebalance.Fails (r : Rebalance) : Prop := r.Known ∧ r.answer.toBool = true

instance (r : Rebalance) : Decidable r.Fails := inferInstanceAs (Decidable (_ ∧ _))

/-- Eager: an ASSIGN replaces what is owned and a REVOKE clears it.  Cooperative: they add and
remove. -/
def Membership.after (m : Membership) (r : Rebalance) : Membership :=
  let coop := m.coop.or (r.protocol.map (· = "COOPERATIVE"))
  let tps := getTopicPartitions r.partitions
  if r.err = RD_KAFKA_RESP_ERR__ASSIGN_PARTITIONS then
    ⟨coop, if coop = some true then m.owned ∪ tps else tps⟩
  else if r.err = RD_KAFKA_RESP_ERR__REVOKE_PARTITIONS then
    ⟨coop, if coop = some true then m.owned \ tps else ∅⟩
  else m

/-- The consumer's own view, and librdkafka's. -/
def Client.membership (c : Client Cb) : Membership :=
  ⟨c.consumer.cooperativeEnabled, c.consumer.assignment⟩

def Client.rkMembership (c : Client Cb) : Membership :=
  ⟨c.consumer.cooperativeEnabled, c.rk.assignment⟩

theorem nulFree_getTopicPartitions {l : Option RkTopicPartitionList} {tp : TopicPartition}
    (h : tp ∈ getTopicPartitions l) : NulFree tp.first := by
  cases l with
  | none => simp [getTopicPartitions] at h
  | some l =>
    obtain ⟨e, -, rfl⟩ := mem_getTopicPartitions.mp h
    exact e.topic.2

/-- What a rebalance leaves alone. -/
structure SameUser (q q' : KafkaConsumer Cb) : Prop where
  userSubscription : q'.userSubscription = q.userSubscription
  userAssignment : q'.userAssignment = q.userAssignment
  rebalanceCb : q'.rebalanceCb = q.rebalanceCb

theorem SameUser.refl (q : KafkaConsumer Cb) : SameUser q q := ⟨rfl, rfl, rfl⟩

theorem SameUser.trans {q q' q'' : KafkaConsumer Cb} (h : SameUser q q') (h' : SameUser q' q'') :
    SameUser q q'' :=
  ⟨h'.userSubscription.trans h.userSubscription, h'.userAssignment.trans h.userAssignment,
    h'.rebalanceCb.trans h.rebalanceCb⟩

namespace Client

theorem onRebalance_of_unknown {c : Client Cb} {r : Rebalance} (h : ¬ r.Known) :
    c.onRebalance r = (c, [], .ok ()) := by
  rw [Rebalance.Known, not_or] at h
  rw [onRebalance, if_neg h.1, if_neg h.2]

/-- An event of a known kind comes down to one `changeAssignment`, as the protocol has it. -/
theorem onRebalance_of_known {c : Client Cb} {r : Rebalance} (h : r.Known) :
    ∃ event tps, (∀ tp ∈ tps, NulFree tp.first) ∧
      (∀ owned, Membership.after ⟨c.consumer.cooperativeEnabled, owned⟩ r
        = ⟨(noteRebalance c.consumer r).cooperativeEnabled, event.apply owned tps⟩) ∧
      (c.onRebalance r).1 =
        ((c.modify (noteRebalance · r)).changeAssignment event tps r.answer).1 ∧
      (c.onRebalance r).2.2 = throwIfWithError r.answer.copy := by
  have hnul : ∀ tp ∈ getTopicPartitions r.partitions, NulFree tp.first :=
    fun tp => nulFree_getTopicPartitions
  set q := noteRebalance c.consumer r with hq
  have hcoop : c.consumer.cooperativeEnabled.or (r.protocol.map (· = "COOPERATIVE"))
      = q.cooperativeEnabled := rfl
  by_cases hassign : r.err = RD_KAFKA_RESP_ERR__ASSIGN_PARTITIONS
  · refine ⟨if q.isCooperativeEnabled then .IncrementalAssign else .Assign,
      getTopicPartitions r.partitions, hnul, fun owned => ?_, ?_, ?_⟩
    · rw [Membership.after, if_pos hassign, hcoop]
      by_cases hb : q.cooperativeEnabled = some true <;>
        simp [KafkaConsumer.isCooperativeEnabled, hb, PartitionsRebalanceEvent.apply]
    · rw [onRebalance, if_pos hassign]
      dsimp only
      rcases hx : (c.modify (noteRebalance · r)).changeAssignment _ _ r.answer with ⟨c', _ | _⟩ <;>
        exact (congrArg Prod.fst hx).symm
    · rw [onRebalance, if_pos hassign, ← changeAssignment_result (c.modify (noteRebalance · r))
        (if q.isCooperativeEnabled then .IncrementalAssign else .Assign)
        (getTopicPartitions r.partitions)]
      dsimp only
      rcases hx : (c.modify (noteRebalance · r)).changeAssignment _ _ r.answer with ⟨c', _ | _⟩ <;>
        exact (congrArg Prod.snd hx).symm
  · have hrevoke : r.err = RD_KAFKA_RESP_ERR__REVOKE_PARTITIONS := h.resolve_left hassign
    refine ⟨if q.isCooperativeEnabled then .IncrementalUnassign else .Revoke,
      if q.isCooperativeEnabled then getTopicPartitions r.partitions else ∅, ?_,
      fun owned => ?_, ?_, ?_⟩
    · split
      · exact hnul
      · simp
    · rw [Membership.after, if_neg hassign, if_pos hrevoke, hcoop]
      by_cases hb : q.cooperativeEnabled = some true <;>
        simp [KafkaConsumer.isCooperativeEnabled, hb, PartitionsRebalanceEvent.apply]
    · rw [onRebalance, if_neg hassign, if_pos hrevoke]
      rfl
    · rw [onRebalance, if_neg hassign, if_pos hrevoke]
      exact changeAssignment_result _ _ _ _

/-- Success and failure of a rebalance. -/
theorem onRebalance_result (c : Client Cb) (r : Rebalance) :
    (∃ e, (c.onRebalance r).2.2 = .error e) ↔ r.Fails := by
  by_cases hk : r.Known
  · obtain ⟨_, _, -, -, -, hres⟩ := onRebalance_of_known (c := c) hk
    rw [hres, Rebalance.Fails, and_iff_right hk]
    cases herr : r.answer.toBool with
    | true => simp [throwIfWithError_of_true (e := r.answer.copy) herr]
    | false => simp [throwIfWithError_of_false (e := r.answer.copy) herr]
  · rw [onRebalance_of_unknown hk]
    simp [Rebalance.Fails, hk]

/-- All that an event sets of the consumer: what `noteRebalance` does, and the assignment, whatever
librdkafka answers. -/
theorem onRebalance_consumer (c : Client Cb) (r : Rebalance) :
    (c.onRebalance r).1.consumer =
      if r.Known then
        { noteRebalance c.consumer r with assignment := (c.membership.after r).owned }
      else c.consumer := by
  by_cases hk : r.Known
  · obtain ⟨event, tps, -, hafter, hc, -⟩ := onRebalance_of_known (c := c) hk
    rw [hc, changeAssignment_consumer, if_pos hk, membership, hafter]
    rfl
  · rw [onRebalance_of_unknown hk, if_neg hk]

/-- **`_assignment` follows the protocol**, whatever librdkafka answers. -/
theorem onRebalance_membership (c : Client Cb) (r : Rebalance) :
    (c.onRebalance r).1.membership = c.membership.after r := by
  by_cases hk : r.Known
  · obtain ⟨event, tps, -, hafter, hc, -⟩ := onRebalance_of_known (c := c) hk
    rw [membership, membership, hafter, hc, changeAssignment_consumer]
    rfl
  · rw [onRebalance_of_unknown hk, Membership.after, if_neg (fun h => hk (.inl h)),
      if_neg (fun h => hk (.inr h))]

/-- **librdkafka's assignment follows it** unless it refuses, and its subscription stays. -/
theorem onRebalance_rk (c : Client Cb) (r : Rebalance) :
    (c.onRebalance r).1.rk =
      if r.Fails then c.rk else { c.rk with assignment := (c.rkMembership.after r).owned } := by
  by_cases hk : r.Known
  · obtain ⟨event, tps, hnul, hafter, hc, -⟩ := onRebalance_of_known (c := c) hk
    rw [rkMembership, hafter, hc, changeAssignment_rk _ _ hnul]
    simp only [Rebalance.Fails, hk, true_and]
    rfl
  · rw [onRebalance_of_unknown hk, Membership.after, if_neg (fun h => hk (.inl h)),
      if_neg (fun h => hk (.inr h))]
    simp [rkMembership]

theorem onRebalance_user (c : Client Cb) (r : Rebalance) :
    SameUser c.consumer (c.onRebalance r).1.consumer := by
  rw [onRebalance_consumer]
  split <;> exact ⟨rfl, rfl, rfl⟩

end Client

/-! ## §5. Serving events. -/

/-- The events up to the first that fails, which ends the serving. -/
def throughFailure : List Rebalance → List Rebalance
  | [] => []
  | r :: rs => if r.Fails then [r] else r :: throughFailure rs

/-- An event librdkafka refuses asks for nothing new. -/
def Harmless (m : Membership) : List Rebalance → Prop
  | [] => True
  | r :: rs => (r.Fails → (m.after r).owned = m.owned) ∧ Harmless (m.after r) rs

theorem Harmless.of_append {served rest : List Rebalance} {m : Membership}
    (h : Harmless m (served ++ rest)) : Harmless m served := by
  induction served generalizing m with
  | nil => trivial
  | cons r rs ih => exact ⟨h.1, ih h.2⟩

theorem throughFailure_append {served rest : List Rebalance} (h : ∃ r ∈ served, r.Fails) :
    throughFailure (served ++ rest) = throughFailure served := by
  induction served with
  | nil => simp at h
  | cons r rs ih =>
    rw [List.cons_append, throughFailure, throughFailure]
    by_cases hr : r.Fails
    · rw [if_pos hr, if_pos hr]
    · obtain ⟨x, hx, hfx⟩ := h
      rcases List.mem_cons.mp hx with rfl | hx
      · exact absurd hfx hr
      · rw [if_neg hr, if_neg hr, ih ⟨x, hx, hfx⟩]

namespace Client

/-- `_assignment` is librdkafka's assignment. -/
def InStep (c : Client Cb) : Prop := c.consumer.assignment = c.rk.assignment

theorem onRebalance_inStep {c : Client Cb} (h : c.InStep) {r : Rebalance}
    (hr : r.Fails → (c.membership.after r).owned = c.membership.owned) :
    (c.onRebalance r).1.InStep := by
  have hown : (c.onRebalance r).1.consumer.assignment = (c.membership.after r).owned :=
    congrArg Membership.owned (c.onRebalance_membership r)
  have hsame : c.rkMembership = c.membership := by
    rw [rkMembership, membership, show c.consumer.assignment = c.rk.assignment from h]
  rw [InStep, hown, onRebalance_rk]
  by_cases hf : r.Fails
  · rw [if_pos hf, hr hf]
    exact h
  · rw [if_neg hf, hsame]

/-- What serving `events` from `c` led to. -/
structure Served (c c' : Client Cb) (events : List Rebalance) : Prop where
  membership : c'.membership = (throughFailure events).foldl Membership.after c.membership
  user : SameUser c.consumer c'.consumer
  subscription : c'.rk.subscription = c.rk.subscription
  inStep : c.InStep → Harmless c.membership events → c'.InStep

theorem serve_served (c : Client Cb) (events : List Rebalance) :
    Served c (c.serve events).1 events ∧
      ((∃ e, (c.serve events).2.2 = .error e) ↔ ∃ r ∈ events, r.Fails) := by
  induction events generalizing c with
  | nil => exact ⟨⟨rfl, SameUser.refl _, rfl, fun h _ => h⟩, by simp [serve]⟩
  | cons r rs ih =>
    have hmem := c.onRebalance_membership r
    have huser := c.onRebalance_user r
    have hsub : (c.onRebalance r).1.rk.subscription = c.rk.subscription := by
      rw [onRebalance_rk]
      split <;> rfl
    have hfails := c.onRebalance_result r
    have hstep := fun (h : c.InStep) => c.onRebalance_inStep h (r := r)
    rw [serve]
    rcases hr : c.onRebalance r with ⟨c₁, invocations, e | ⟨⟩⟩ <;>
      simp only [hr] at hmem huser hsub hfails hstep ⊢
    · have hf : r.Fails := hfails.mp ⟨e, rfl⟩
      refine ⟨⟨?_, huser, hsub, fun h hh => hstep h hh.1⟩, iff_of_true ⟨e, rfl⟩ ⟨r, by simp, hf⟩⟩
      rw [throughFailure, if_pos hf]
      exact hmem
    · have hf : ¬ r.Fails := fun hf => by simpa using hfails.mpr hf
      obtain ⟨s, hiff⟩ := ih c₁
      refine ⟨⟨?_, huser.trans s.user, s.subscription.trans hsub, fun h hh => ?_⟩, ?_⟩
      · rw [throughFailure, if_neg hf, List.foldl_cons, ← hmem]
        exact s.membership
      · exact s.inStep (hstep h hh.1) (hmem ▸ hh.2)
      · simpa [hf] using hiff

/-- Serving on after events without a failure. -/
theorem serve_append {c : Client Cb} {events : List Rebalance} (h : ∀ r ∈ events, ¬ r.Fails)
    (more : List Rebalance) :
    (c.serve (events ++ more)).1 = ((c.serve events).1.serve more).1 ∧
      (c.serve (events ++ more)).2.2 = ((c.serve events).1.serve more).2.2 := by
  induction events generalizing c with
  | nil => exact ⟨rfl, rfl⟩
  | cons r rs ih =>
    have hfails := c.onRebalance_result r
    rw [List.cons_append, serve, serve]
    rcases hr : c.onRebalance r with ⟨c₁, invocations, e | ⟨⟩⟩ <;> simp only [hr] at hfails ⊢
    · exact absurd (hfails.mp ⟨e, rfl⟩) (h r (by simp))
    · exact ih fun r hr => h r (List.mem_cons_of_mem _ hr)

/-- The events a wait serves: whole turns of the loop, up to the one that fails or leaves nothing
to wait for. -/
def servedBy (c : Client Cb) : List (List Rebalance) → List Rebalance
  | [] => []
  | round :: rounds =>
    match c.serve round with
    | (_, _, .error _) => round
    | (c, _, .ok ()) =>
      if c.consumer.pendingEvent = none then round else round ++ c.servedBy rounds

theorem servedBy_prefix (c : Client Cb) (rounds : List (List Rebalance)) :
    c.servedBy rounds <+: rounds.flatten := by
  induction rounds generalizing c with
  | nil => exact List.nil_prefix
  | cons round rounds ih =>
    rw [servedBy, List.flatten_cons]
    split
    · exact List.prefix_append _ _
    · split
      · exact List.prefix_append _ _
      · exact (List.prefix_append_right_inj round).mpr (ih _)

/-- **A wait serves the first of the events that arrive.** -/
theorem awaitPending_served (c : Client Cb) (rounds : List (List Rebalance)) :
    (c.awaitPending rounds).1 = (c.serve (c.servedBy rounds)).1 ∧
      ((∃ e, (c.awaitPending rounds).2.2 = .error e) ↔ ∃ r ∈ c.servedBy rounds, r.Fails) := by
  induction rounds generalizing c with
  | nil => exact ⟨rfl, by simp [awaitPending, servedBy]⟩
  | cons round rounds ih =>
    obtain ⟨-, hiff⟩ := c.serve_served round
    rw [awaitPending, servedBy]
    rcases hs : c.serve round with ⟨c₁, invocations, e | ⟨⟩⟩ <;> simp only [hs] at hiff ⊢
    · exact ⟨trivial, iff_of_true ⟨e, rfl⟩ (hiff.mp ⟨e, rfl⟩)⟩
    · have hnone : ∀ r ∈ round, ¬ r.Fails := fun r hr hf => by
        simpa using hiff.mpr ⟨r, hr, hf⟩
      by_cases hp : c₁.consumer.pendingEvent = none
      · simp only [hp, if_true]
        exact ⟨by rw [hs], by simpa using hnone⟩
      · simp only [hp, if_false]
        obtain ⟨hc, hiff'⟩ := ih c₁
        obtain ⟨happ, -⟩ := serve_append (c := c) hnone (c₁.servedBy rounds)
        refine ⟨?_, ?_⟩
        · rw [happ, hs]
          exact hc
        · rw [show (∃ r ∈ round ++ c₁.servedBy rounds, r.Fails) ↔
              ∃ r ∈ c₁.servedBy rounds, r.Fails by
            simp only [List.mem_append]
            grind]
          exact hiff'

/-- The events served by the loop at the end of `subscribe` and `unsubscribe`. -/
def awaits (c : Client Cb) (event : PendingEvent) (rounds : List (List Rebalance)) :
    List Rebalance :=
  (c.modify ({ · with pendingEvent := some event })).servedBy rounds

/-- What that loop leads to. -/
theorem waitFor_serves (c : Client Cb) (event : PendingEvent) (rounds : List (List Rebalance))
    (timedOut : String) :
    Served c (c.waitFor event rounds timedOut).1 (c.awaits event rounds) ∧
      ((∃ e, (c.waitFor event rounds timedOut).2.2 = .error (.rdKafka e)) ↔
        ∃ r ∈ c.awaits event rounds, r.Fails) := by
  unfold awaits
  set c₀ := c.modify ({ · with pendingEvent := some event }) with hc₀
  obtain ⟨hc, hiff⟩ := c₀.awaitPending_served rounds
  obtain ⟨s, -⟩ := c₀.serve_served (c₀.servedBy rounds)
  -- `_pendingEvent` is none of what serving is said to change
  have huser : SameUser c.consumer (c₀.serve (c₀.servedBy rounds)).1.consumer :=
    ⟨s.user.userSubscription, s.user.userAssignment, s.user.rebalanceCb⟩
  have hs : ∀ pending, Served c
      ((c₀.awaitPending rounds).1.modify ({ · with pendingEvent := pending }))
      (c₀.servedBy rounds) := by
    intro pending
    rw [hc]
    exact ⟨s.membership, ⟨huser.userSubscription, huser.userAssignment, huser.rebalanceCb⟩,
      s.subscription, s.inStep⟩
  refine ⟨?_, ?_⟩ <;> rw [waitFor, ← hc₀]
  · have hself : Served c (c₀.awaitPending rounds).1 (c₀.servedBy rounds) :=
      hc ▸ ⟨s.membership, huser, s.subscription, s.inStep⟩
    rcases hx : c₀.awaitPending rounds with ⟨c₁, invocations, e | _ | _⟩ <;>
      simp only [hx] at hs hself ⊢
    · exact hself
    · exact hs none
    · exact hself
  · rw [← hiff]
    rcases hx : c₀.awaitPending rounds with ⟨c₁, invocations, e | _ | _⟩ <;> simp

/-- The events served are the first of those that arrive. -/
theorem waitFor_served (c : Client Cb) (event : PendingEvent) (rounds : List (List Rebalance))
    (timedOut : String) :
    ∃ served rest, rounds.flatten = served ++ rest ∧
      Served c (c.waitFor event rounds timedOut).1 served ∧
      ((∃ e, (c.waitFor event rounds timedOut).2.2 = .error (.rdKafka e)) ↔
        ∃ r ∈ served, r.Fails) := by
  obtain ⟨rest, hrest⟩ := servedBy_prefix (c.modify ({ · with pendingEvent := some event })) rounds
  exact ⟨c.awaits event rounds, rest, hrest.symm, c.waitFor_serves event rounds timedOut⟩

end Client

end ModernCppKafka.Consumer
