/-
  ModernCppKafka.Consumer.Ownership — does auto-commit keep to the partitions owned?

  `poll` and `close` commit what is stored and forget it before they serve rebalances;
  `subscribe` and `unsubscribe` serve them with the offsets of the last batch still stored.  A
  partition they take away is committed by the next `poll` or `close` all the same
  (`revoked_then_committed`).

  Here `poll` and `close` serve events as `subscribe` and `unsubscribe` do, and `fresh` is kept
  beside the client: the partitions with a record returned since they were taken away last.

  Main results:
    * `stepOwned_keeps`    — what one call keeps of the stored offsets;
    * `run_commits_owned`  — every run in which no partition with a stored offset is taken.
-/
import ModernCppKafka.Consumer.Atomicity
import ModernCppKafka.Consumer.AutoCommit

namespace ModernCppKafka.Consumer

open ModernCppKafka.Lib.LastWriter
open ModernCppKafka.Lib.Run

variable {Cb : Type}

/-! ## §1. The operations, with rebalances. -/

namespace Client

/-- `events` are the rebalances `rd_kafka_consume_batch_queue` serves before it yields
`fetched`. -/
def poll (c : Client Cb) (respErr : RespErr) (events : List Rebalance)
    (fetched : Except RespErr (List ConsumerRecord)) :
    Client Cb × List (CommitRequest Empty) × List (Invocation Cb) ×
      Except KafkaException (List ConsumerRecord) :=
  match c.consumer.commitStoredOffsetsIfNecessary .Async respErr with
  | (q, requests, .error e) => ({ c with consumer := q }, requests, [], .error e)
  | (q, requests, .ok ()) =>
    match ({ c with consumer := q } : Client Cb).serve events with
    | (c, invocations, .error e) => (c, requests, invocations, .error e)
    | (c, invocations, .ok ()) =>
      match fetched with
      | .error lastError =>
        (c, requests, invocations, .error (.ofError (.ofRespErr lastError)))
      | .ok records =>
        (c.modify (·.storeOffsetsIfNecessary records), requests, invocations, .ok records)

/-- `events` are the rebalances `rd_kafka_consumer_close` serves, after the commit. -/
def close (c : Client Cb) (respErr : RespErr) (events : List Rebalance) :
    Client Cb × List (CommitRequest Empty) × List (Invocation Cb) × Except KafkaException Unit :=
  match c.consumer.close respErr with
  | (q, requests) =>
    match ({ c with consumer := q } : Client Cb).serve events with
    | (c, invocations, result) => (c, requests, invocations, result)

/-- Without rebalances this `poll` is the consumer's. -/
theorem poll_nil (c : Client Cb) (respErr : RespErr)
    (fetched : Except RespErr (List ConsumerRecord)) :
    (c.poll respErr [] fetched).1.consumer = (c.consumer.poll respErr fetched).1 ∧
      (c.poll respErr [] fetched).2.1 = (c.consumer.poll respErr fetched).2.1 ∧
      (c.poll respErr [] fetched).2.2.2 = (c.consumer.poll respErr fetched).2.2 := by
  unfold poll KafkaConsumer.poll
  rcases c.consumer.commitStoredOffsetsIfNecessary .Async respErr with ⟨q, requests, e | ⟨⟩⟩
  · exact ⟨rfl, rfl, rfl⟩
  · cases fetched <;> exact ⟨rfl, rfl, rfl⟩

end Client

/-- A call of a consumer that is used with subscriptions. -/
inductive GroupCall (Cb : Type) where
  | poll (respErr : RespErr) (events : List Rebalance)
      (fetched : Except RespErr (List ConsumerRecord))
  | close (respErr : RespErr) (events : List Rebalance)
  | subscribe (topics : Topics) (rebalanceCallback : Option Cb) (answer : Error)
      (rounds : List (List Rebalance))
  | unsubscribe (answer : Error) (rounds : List (List Rebalance))

namespace Client

def performGroup (c : Client Cb) : GroupCall Cb → Client Cb
  | .poll respErr events fetched => (c.poll respErr events fetched).1
  | .close respErr events => (c.close respErr events).1
  | .subscribe topics cb answer rounds => (c.subscribe topics cb answer rounds).1
  | .unsubscribe answer rounds => (c.unsubscribe answer rounds).1

/-- The commits a call passes to librdkafka; it does so before anything else. -/
def commits (c : Client Cb) : GroupCall Cb → List (CommitRequest Empty)
  | .poll respErr events fetched => (c.poll respErr events fetched).2.1
  | .close respErr events => (c.close respErr events).2.1
  | _ => []

/-- The records a call returns. -/
def returns (c : Client Cb) : GroupCall Cb → List ConsumerRecord
  | .poll respErr events fetched =>
    match (c.poll respErr events fetched).2.2.2 with
    | .ok records => records
    | .error _ => []
  | _ => []

/-- The client when a call begins to serve rebalances, and the ones it serves. -/
def serving (c : Client Cb) : GroupCall Cb → Client Cb × List Rebalance
  | .poll respErr events _ =>
    match c.consumer.commitStoredOffsetsIfNecessary .Async respErr with
    | (q, _, .error _) => ({ c with consumer := q }, [])
    | (q, _, .ok ()) => ({ c with consumer := q }, events)
  | .close respErr events => ({ c with consumer := (c.consumer.close respErr).1 }, events)
  | .subscribe topics cb answer rounds =>
    if c.consumer.userAssignment ≠ ∅
        ∨ (c.consumer.isCooperativeEnabled ∧ topics = c.consumer.userSubscription) then (c, [])
    else if answer.toBool then (c.subscribing topics cb answer, [])
    else (c.subscribing topics cb answer,
      (c.subscribing topics cb answer).awaits .PartitionsAssignment rounds)
  | .unsubscribe answer rounds =>
    if c.consumer.userSubscription = ∅ then (c, [])
    else if answer.toBool then (c.unsubscribing answer, [])
    else (c.unsubscribing answer, (c.unsubscribing answer).awaits .PartitionsRevocation rounds)

end Client

/-- What the events take out of `_assignment`, one after the other. -/
def taken (m : Membership) : List Rebalance → TopicPartitions
  | [] => ∅
  | r :: rs => (m.owned \ (m.after r).owned) ∪ taken (m.after r) rs

/-- What the rebalances served in a call take out of `_assignment`, and what they leave in it. -/
def Client.takenBy (c : Client Cb) (call : GroupCall Cb) : TopicPartitions :=
  taken c.membership (throughFailure (c.serving call).2)

def Client.ownedAfter (c : Client Cb) (call : GroupCall Cb) : TopicPartitions :=
  ((throughFailure (c.serving call).2).foldl Membership.after c.membership).owned

/-- A client, and the partitions with a record returned since they were taken away last. -/
structure Owning (Cb : Type) where
  client : Client Cb := {}
  fresh : TopicPartitions := ∅

def stepOwned (s : Owning Cb) (call : GroupCall Cb) : Option (Owning Cb) :=
  some {
    client := s.client.performGroup call
    fresh := (s.fresh \ s.client.takenBy call)
      ∪ ((s.client.returns call).map ConsumerRecord.topicPartition).toFinset }

/-- What the call commits is for partitions in `_assignment`, and for records returned since
their partition was taken away last. -/
def CommitsOwned (s : Owning Cb) (call : GroupCall Cb) : Prop :=
  ∀ request ∈ s.client.commits call, ∀ offsets ∈ request.offsets, ∀ e ∈ offsets,
    e.key ∈ s.client.consumer.assignment ∧ e.key ∈ s.fresh

/-- No rebalance served takes a partition away whose offset is stored meanwhile, and the records
returned are of partitions in `_assignment`. -/
structure KeepsStored (s : Owning Cb) (call : GroupCall Cb) : Prop where
  stored : ∀ tp ∈ (s.client.serving call).1.consumer.offsetsToStore, tp ∉ s.client.takenBy call
  returned : ∀ r ∈ s.client.returns call, r.topicPartition ∈ s.client.ownedAfter call

instance CommitsOwned.decidable (s : Owning Cb) (call : GroupCall Cb) :
    Decidable (CommitsOwned s call) :=
  inferInstanceAs (Decidable (∀ request ∈ s.client.commits call, ∀ offsets ∈ request.offsets,
    ∀ e ∈ offsets, e.key ∈ s.client.consumer.assignment ∧ e.key ∈ s.fresh))

instance KeepsStored.decidable (s : Owning Cb) (call : GroupCall Cb) :
    Decidable (KeepsStored s call) :=
  decidable_of_iff
    ((∀ tp ∈ (s.client.serving call).1.consumer.offsetsToStore.keys,
        tp ∉ s.client.takenBy call) ∧
      ∀ r ∈ s.client.returns call, r.topicPartition ∈ s.client.ownedAfter call)
    ⟨fun h => ⟨fun tp htp => h.1 tp (Std.ExtTreeMap.mem_keys.mpr htp), h.2⟩,
      fun h => ⟨fun tp htp => h.stored tp (Std.ExtTreeMap.mem_keys.mp htp), h.returned⟩⟩

/-! ## §2. What rebalances leave alone. -/

/-- The members `commitStoredOffsetsIfNecessary` reads are the same. -/
structure SameStore (q q' : KafkaConsumer Cb) : Prop where
  auto : q'.enableAutoCommit = q.enableAutoCommit
  stored : q'.offsetsToStore = q.offsetsToStore

namespace Client

theorem onRebalance_store (c : Client Cb) (r : Rebalance) :
    SameStore c.consumer (c.onRebalance r).1.consumer := by
  rw [onRebalance_consumer]
  split <;> exact ⟨rfl, rfl⟩

theorem serve_store (c : Client Cb) (events : List Rebalance) :
    SameStore c.consumer (c.serve events).1.consumer := by
  induction events generalizing c with
  | nil => exact ⟨rfl, rfl⟩
  | cons r rs ih =>
    -- whether or not the first event fails, it left the members alone
    have hstore := c.onRebalance_store r
    rw [serve]
    rcases hr : c.onRebalance r with ⟨c₁, invocations, e | ⟨⟩⟩ <;> rw [hr] at hstore
    · exact hstore
    · exact ⟨(ih c₁).auto.trans hstore.auto, (ih c₁).stored.trans hstore.stored⟩

theorem waitFor_store (c : Client Cb) (event : PendingEvent) (rounds : List (List Rebalance))
    (timedOut : String) : SameStore c.consumer (c.waitFor event rounds timedOut).1.consumer := by
  set c₀ := c.modify ({ · with pendingEvent := some event }) with hc₀
  obtain ⟨hc, -⟩ := c₀.awaitPending_served rounds
  have hstore := c₀.serve_store (c₀.servedBy rounds)
  rw [← hc] at hstore
  rw [waitFor, ← hc₀]
  rcases hx : c₀.awaitPending rounds with ⟨c₁, invocations, e | _ | _⟩ <;> rw [hx] at hstore <;>
    exact ⟨hstore.auto, hstore.stored⟩

end Client

/-- What is owned and not taken is owned afterwards. -/
theorem mem_owned_of_not_taken {events : List Rebalance} {m : Membership} {tp : TopicPartition}
    (h : tp ∈ m.owned) (hnot : tp ∉ taken m events) :
    tp ∈ (events.foldl Membership.after m).owned := by
  induction events generalizing m with
  | nil => exact h
  | cons r rs ih =>
    rw [taken, Finset.mem_union, not_or, Finset.mem_sdiff, not_and_not_right] at hnot
    exact ih (hnot.1 h) hnot.2

/-! ## §3. One call. -/

/-- The two ways through `commitStoredOffsetsIfNecessary`, when offsets are stored. -/
theorem commitStored_cases (q : KafkaConsumer Cb) (hauto : q.enableAutoCommit = true)
    (type : CommitType) (respErr : RespErr) :
    (q.offsetsToStore = ∅ ∧ q.commitStoredOffsetsIfNecessary type respErr = (q, [], .ok ())) ∨
    (q.offsetsToStore ≠ ∅ ∧ ∃ m result,
      (m = ∅ ∧ result = .ok () ∨ m = incremented q.offsetsToStore ∧ ∃ e, result = .error e) ∧
      q.commitStoredOffsetsIfNecessary type respErr = ({ q with offsetsToStore := m },
        [.rd_kafka_commit (some (createRkTopicPartitionList (incremented q.offsetsToStore)))
          (type = .Async)], result)) := by
  by_cases hne : q.offsetsToStore = ∅
  · refine .inl ⟨hne, ?_⟩
    simp [KafkaConsumer.commitStoredOffsetsIfNecessary, hne]
  · have hempty : q.offsetsToStore.isEmpty = false := Std.ExtTreeMap.isEmpty_eq_false_iff.mpr hne
    refine .inr ⟨hne, ?_⟩
    by_cases herr : respErr = RD_KAFKA_RESP_ERR_NO_ERROR
    · refine ⟨∅, .ok (), .inl ⟨rfl, rfl⟩, ?_⟩
      simp [KafkaConsumer.commitStoredOffsetsIfNecessary, hauto, hempty,
        commit_of_ne (incremented_ne hne), throwIfWithError_ofRespErr, herr]
    · refine ⟨_, .error (.ofError (.ofRespErr respErr)), .inr ⟨rfl, _, rfl⟩, ?_⟩
      simp [KafkaConsumer.commitStoredOffsetsIfNecessary, hauto, hempty,
        commit_of_ne (incremented_ne hne), throwIfWithError_ofRespErr, herr]

/-- What becomes of the client in a call: `before` is the client when it begins to serve
`events`, and `records` are what it returns. -/
structure Performed (c before : Client Cb) (events : List Rebalance)
    (records : List ConsumerRecord) (c' : Client Cb) : Prop where
  membership : before.membership = c.membership
  auto : c'.consumer.enableAutoCommit = c.consumer.enableAutoCommit
  userAssignment : c'.consumer.userAssignment = c.consumer.userAssignment
  assignment : c'.consumer.assignment
    = ((throughFailure events).foldl Membership.after c.membership).owned
  stored : c'.consumer.offsetsToStore = store ConsumerRecord.topicPartition ConsumerRecord.offset
    records before.consumer.offsetsToStore
  kept : ∀ tp ∈ before.consumer.offsetsToStore, tp ∈ c.consumer.offsetsToStore

/-- Serving events returns no records and leaves what is stored. -/
theorem Performed.of_served {c before c' : Client Cb} {events : List Rebalance}
    (hmem : before.membership = c.membership)
    (hauto : before.consumer.enableAutoCommit = c.consumer.enableAutoCommit)
    (huser : before.consumer.userAssignment = c.consumer.userAssignment)
    (hkept : ∀ tp ∈ before.consumer.offsetsToStore, tp ∈ c.consumer.offsetsToStore)
    (hs : Client.Served before c' events) (hstore : SameStore before.consumer c'.consumer) :
    Performed c before events [] c' where
  membership := hmem
  auto := hstore.auto.trans hauto
  userAssignment := hs.user.userAssignment.trans huser
  assignment := hmem ▸ congrArg Membership.owned hs.membership
  stored := hstore.stored
  kept := hkept

/-- Nothing served. -/
theorem Performed.of_eq {c before : Client Cb} (hmem : before.membership = c.membership)
    (hauto : before.consumer.enableAutoCommit = c.consumer.enableAutoCommit)
    (huser : before.consumer.userAssignment = c.consumer.userAssignment)
    (hkept : ∀ tp ∈ before.consumer.offsetsToStore, tp ∈ c.consumer.offsetsToStore) :
    Performed c before [] [] before :=
  .of_served hmem hauto huser hkept ⟨rfl, SameUser.refl _, rfl, fun h _ => h⟩ ⟨rfl, rfl⟩

theorem mem_incremented {m : TopicPartitionOffsets} {tp : TopicPartition} :
    tp ∈ incremented m ↔ tp ∈ m := by
  simp [incremented]

theorem performed_subscribe {c : Client Cb} (hua : c.consumer.userAssignment = ∅)
    (topics : Topics) (cb : Option Cb) (answer : Error) (rounds : List (List Rebalance)) :
    Performed c (c.serving (.subscribe topics cb answer rounds)).1
      (c.serving (.subscribe topics cb answer rounds)).2 []
      (c.subscribe topics cb answer rounds).1 := by
  have hua' : ¬ c.consumer.userAssignment ≠ ∅ := not_not.mpr hua
  unfold Client.serving Client.subscribe
  dsimp only
  rw [if_neg hua']
  by_cases hskip : c.consumer.isCooperativeEnabled ∧ topics = c.consumer.userSubscription
  · -- nothing is asked, nothing served
    rw [if_pos hskip, if_pos (.inr hskip)]
    exact .of_eq rfl rfl rfl fun _ h => h
  · rw [if_neg hskip, if_neg (not_or.mpr ⟨hua', hskip⟩)]
    cases herr : answer.toBool with
    | true =>
      rw [throwIfWithError_of_true herr, if_pos rfl]
      exact .of_eq rfl rfl rfl fun _ h => h
    | false =>
      rw [throwIfWithError_of_false herr, if_neg Bool.false_ne_true]
      obtain ⟨hs, -⟩ := (c.subscribing topics cb answer).waitFor_serves .PartitionsAssignment
        rounds "subscribe() timed out!"
      exact .of_served rfl rfl rfl (fun _ h => h) hs (Client.waitFor_store _ _ _ _)

theorem performed_unsubscribe {c : Client Cb} (hua : c.consumer.userAssignment = ∅)
    (answer : Error) (rounds : List (List Rebalance)) :
    Performed c (c.serving (.unsubscribe answer rounds)).1
      (c.serving (.unsubscribe answer rounds)).2 [] (c.unsubscribe answer rounds).1 := by
  have hua' : ¬ c.consumer.userAssignment ≠ ∅ := not_not.mpr hua
  unfold Client.serving Client.unsubscribe
  dsimp only
  by_cases hus : c.consumer.userSubscription = ∅
  · -- nothing to give up
    rw [if_pos hus, if_pos ⟨hus, hua⟩]
    exact .of_eq rfl rfl rfl fun _ h => h
  · have hskip : ¬ (c.consumer.userSubscription = ∅ ∧ c.consumer.userAssignment = ∅) :=
      fun h => hus h.1
    rw [if_neg hus, if_neg hskip, if_neg hua']
    cases herr : answer.toBool with
    | true =>
      rw [throwIfWithError_of_true herr, if_pos rfl]
      exact .of_eq rfl rfl rfl fun _ h => h
    | false =>
      rw [throwIfWithError_of_false herr, if_neg Bool.false_ne_true]
      obtain ⟨hs, -⟩ := (c.unsubscribing answer).waitFor_serves .PartitionsRevocation
        rounds "unsubscribe() timed out!"
      exact .of_served rfl rfl rfl (fun _ h => h) hs (Client.waitFor_store _ _ _ _)

theorem performed_poll {c : Client Cb} (hauto : c.consumer.enableAutoCommit = true)
    (respErr : RespErr) (events : List Rebalance)
    (fetched : Except RespErr (List ConsumerRecord)) :
    Performed c (c.serving (.poll respErr events fetched)).1
      (c.serving (.poll respErr events fetched)).2 (c.returns (.poll respErr events fetched))
      (c.poll respErr events fetched).1 := by
  -- the commit leaves the offsets incremented, if it fails, or else none
  obtain ⟨m, result, hkept, hcommit⟩ : ∃ m result, (∀ tp ∈ m, tp ∈ c.consumer.offsetsToStore) ∧
      ∃ requests, c.consumer.commitStoredOffsetsIfNecessary .Async respErr
        = ({ c.consumer with offsetsToStore := m }, requests, result) := by
    rcases commitStored_cases c.consumer hauto .Async respErr with
      ⟨-, heq⟩ | ⟨-, m, result, ⟨rfl, -⟩ | ⟨rfl, -⟩, heq⟩
    · exact ⟨c.consumer.offsetsToStore, .ok (), fun _ h => h, [], heq⟩
    · exact ⟨∅, result, by simp, _, heq⟩
    · exact ⟨_, result, fun _ => mem_incremented.mp, _, heq⟩
  obtain ⟨requests, hcommit⟩ := hcommit
  unfold Client.serving Client.returns Client.poll
  dsimp only
  rw [hcommit]
  rcases result with e | ⟨⟩
  · exact .of_eq rfl rfl rfl hkept
  · -- events are served with what the commit left, then the batch is stored
    dsimp only
    set before : Client Cb := { c with consumer := { c.consumer with offsetsToStore := m } }
    obtain ⟨hs, -⟩ := before.serve_served events
    have hperformed : Performed c before events [] (before.serve events).1 :=
      .of_served rfl rfl rfl hkept hs (before.serve_store events)
    rcases hx : before.serve events with ⟨c', invocations, e | ⟨⟩⟩ <;> rw [hx] at hperformed
    · exact hperformed
    · rcases fetched with e | records
      · exact hperformed
      · have hauto' : c'.consumer.enableAutoCommit = true := hperformed.auto.trans hauto
        have hstore : c'.consumer.storeOffsetsIfNecessary records = { c'.consumer with
            offsetsToStore := store ConsumerRecord.topicPartition ConsumerRecord.offset records
              c'.consumer.offsetsToStore } := if_pos hauto'
        dsimp only [Client.modify]
        rw [hstore]
        refine ⟨rfl, hperformed.auto, hperformed.userAssignment, hperformed.assignment, ?_, hkept⟩
        rw [hperformed.stored]
        rfl

theorem performed_close {c : Client Cb} (hauto : c.consumer.enableAutoCommit = true)
    (respErr : RespErr) (events : List Rebalance) :
    Performed c (c.serving (.close respErr events)).1 (c.serving (.close respErr events)).2 []
      (c.close respErr events).1 := by
  obtain ⟨m, hkept, requests, hclose⟩ : ∃ m, (∀ tp ∈ m, tp ∈ c.consumer.offsetsToStore) ∧
      ∃ requests, c.consumer.close respErr
        = ({ c.consumer with offsetsToStore := m }, requests) := by
    unfold KafkaConsumer.close
    rcases commitStored_cases c.consumer hauto .Sync respErr with
      ⟨-, heq⟩ | ⟨-, m, result, ⟨rfl, -⟩ | ⟨rfl, -⟩, heq⟩ <;> rw [heq]
    · exact ⟨c.consumer.offsetsToStore, fun _ h => h, [], rfl⟩
    · exact ⟨∅, by simp, _, rfl⟩
    · exact ⟨_, fun _ => mem_incremented.mp, _, rfl⟩
  unfold Client.serving Client.close
  dsimp only
  rw [hclose]
  dsimp only
  set before : Client Cb := { c with consumer := { c.consumer with offsetsToStore := m } }
  obtain ⟨hs, -⟩ := before.serve_served events
  exact .of_served rfl rfl rfl hkept hs (before.serve_store events)

/-- **One call**: the commit comes first, then the rebalances, then the records returned are
stored. -/
theorem performed {c : Client Cb} (hauto : c.consumer.enableAutoCommit = true)
    (hua : c.consumer.userAssignment = ∅) (call : GroupCall Cb) :
    Performed c (c.serving call).1 (c.serving call).2 (c.returns call) (c.performGroup call) := by
  cases call with
  | poll respErr events fetched => exact performed_poll hauto respErr events fetched
  | close respErr events => exact performed_close hauto respErr events
  | subscribe topics cb answer rounds => exact performed_subscribe hua topics cb answer rounds
  | unsubscribe answer rounds => exact performed_unsubscribe hua answer rounds

/-- A call commits nothing, or what `commitStoredOffsetsIfNecessary` does. -/
theorem Client.commits_cases (c : Client Cb) (call : GroupCall Cb) :
    c.commits call = [] ∨
      ∃ type respErr, c.commits call
        = (c.consumer.commitStoredOffsetsIfNecessary type respErr).2.1 := by
  cases call with
  | poll respErr events fetched =>
    refine .inr ⟨.Async, respErr, ?_⟩
    show (c.poll respErr events fetched).2.1 = _
    unfold Client.poll
    rcases c.consumer.commitStoredOffsetsIfNecessary .Async respErr with ⟨q, requests, e | ⟨⟩⟩
    · rfl
    · dsimp only
      rcases ({ c with consumer := q } : Client Cb).serve events with ⟨c', invocations, e | ⟨⟩⟩
      · rfl
      · cases fetched <;> rfl
  | close respErr events => exact .inr ⟨.Sync, respErr, rfl⟩
  | _ => exact .inl rfl

/-- A commit is of the offsets stored, one past each. -/
theorem offsets_of_commits {c : Client Cb} (hauto : c.consumer.enableAutoCommit = true)
    {call : GroupCall Cb} {request : CommitRequest Empty} (h : request ∈ c.commits call) :
    request.offsets =
      some (createRkTopicPartitionList (incremented c.consumer.offsetsToStore)) := by
  rcases c.commits_cases call with heq | ⟨type, respErr, heq⟩ <;> rw [heq] at h
  · simp at h
  · rcases commitStored_cases c.consumer hauto type respErr with ⟨-, hc⟩ | ⟨-, m, result, -, hc⟩ <;>
      rw [hc] at h
    · simp at h
    · obtain rfl := List.mem_singleton.mp h
      rfl

/-- A `close` commits every partition with a stored offset. -/
theorem close_commits {c : Client Cb} (hauto : c.consumer.enableAutoCommit = true)
    (hnul : NulFreeTopics c.consumer.offsetsToStore) {tp : TopicPartition}
    (htp : tp ∈ c.consumer.offsetsToStore) (respErr : RespErr) :
    ∃ request ∈ c.commits (.close respErr []), ∃ offsets ∈ request.offsets,
      ∃ e ∈ offsets, e.key = tp := by
  have hget := Std.ExtTreeMap.getElem?_eq_some_getElem htp
  rcases commitStored_cases c.consumer hauto .Sync respErr with ⟨hnone, -⟩ | ⟨-, m, result, -, hc⟩
  · simp [hnone] at htp
  · have hkey : RkTopicPartition.key ⟨c_str tp.first, tp.second, c.consumer.offsetsToStore[tp] + 1⟩
        = tp := by
      rw [RkTopicPartition.key, c_str_of_nulFree (hnul tp htp)]
    have hmem : .rd_kafka_commit
        (some (createRkTopicPartitionList (incremented c.consumer.offsetsToStore)))
        (CommitType.Sync = .Async) ∈ c.commits (.close respErr []) := by
      show _ ∈ (c.consumer.commitStoredOffsetsIfNecessary .Sync respErr).2.1
      rw [hc]
      exact List.mem_singleton_self _
    have hentry : c.consumer.offsetsToStore[tp] ∈ c.consumer.offsetsToStore[RkTopicPartition.key
        ⟨c_str tp.first, tp.second, c.consumer.offsetsToStore[tp] + 1⟩]? := by
      rw [hkey]
      exact hget
    exact ⟨_, hmem, _, rfl, _, (mem_storedCommit hnul).mpr ⟨_, hentry, rfl⟩, hkey⟩

/-! ## §4. What one call keeps. -/

/-- What is stored is of partitions in `_assignment`, returned since they were taken last. -/
structure StoredOwned (s : Owning Cb) : Prop where
  auto : s.client.consumer.enableAutoCommit = true
  userAssignment : s.client.consumer.userAssignment = ∅
  nulFree : NulFreeTopics s.client.consumer.offsetsToStore
  owned : ∀ tp ∈ s.client.consumer.offsetsToStore,
    tp ∈ s.client.consumer.assignment ∧ tp ∈ s.fresh

theorem storedOwned_start : StoredOwned ({} : Owning Cb) :=
  ⟨rfl, rfl, by simp [NulFreeTopics], by simp⟩

/-- From such a state a call commits for owned partitions only. -/
theorem StoredOwned.commitsOwned {s : Owning Cb} (h : StoredOwned s) (call : GroupCall Cb) :
    CommitsOwned s call := by
  intro request hrequest offsets hoffsets e he
  rw [offsets_of_commits h.auto hrequest] at hoffsets
  obtain rfl := Option.some.inj hoffsets
  obtain ⟨o, ho, -⟩ := (mem_storedCommit h.nulFree).mp he
  exact h.owned e.key (Std.ExtTreeMap.mem_iff_isSome_getElem?.mpr (Option.isSome_of_mem ho))

theorem mem_store {records : List ConsumerRecord} {m : TopicPartitionOffsets}
    {tp : TopicPartition} :
    tp ∈ store ConsumerRecord.topicPartition ConsumerRecord.offset records m ↔
      (∃ r ∈ records, r.topicPartition = tp) ∨ tp ∈ m := by
  have hlast : (lastRecord tp records).isSome ↔ ∃ r ∈ records, r.topicPartition = tp := by
    constructor
    · intro h
      obtain ⟨r, hr⟩ := Option.isSome_iff_exists.mp h
      exact ⟨r, mem_of_lastFor hr, key_of_lastFor hr⟩
    · rintro ⟨r, hr, rfl⟩
      exact lastFor_isSome_of_mem ConsumerRecord.topicPartition hr
  rw [Std.ExtTreeMap.mem_iff_isSome_getElem?, getElem?_store, Option.isSome_or, Bool.or_eq_true,
    Option.isSome_map, Std.ExtTreeMap.mem_iff_isSome_getElem?]
  exact or_congr_left hlast

/-- What is stored after a call. -/
theorem Performed.mem_stored {c before c' : Client Cb} {events : List Rebalance}
    {records : List ConsumerRecord} (p : Performed c before events records c')
    {tp : TopicPartition} : tp ∈ c'.consumer.offsetsToStore ↔
      (∃ r ∈ records, r.topicPartition = tp) ∨ tp ∈ before.consumer.offsetsToStore := by
  rw [p.stored, mem_store]

theorem Performed.nulFree {c before c' : Client Cb} {events : List Rebalance}
    {records : List ConsumerRecord} (p : Performed c before events records c')
    (h : NulFreeTopics c.consumer.offsetsToStore) : NulFreeTopics c'.consumer.offsetsToStore := by
  intro tp htp
  rcases p.mem_stored.mp htp with ⟨r, -, rfl⟩ | hbefore
  · exact r.topic.2
  · exact h tp (p.kept tp hbefore)

/-- **One call** that takes nothing stored away, and returns records of owned partitions, keeps
what is stored owned. -/
theorem stepOwned_keeps {s s' : Owning Cb} {call : GroupCall Cb} (h : StoredOwned s)
    (hkeeps : KeepsStored s call) (hstep : stepOwned s call = some s') : StoredOwned s' := by
  obtain rfl := Option.some.inj hstep
  have p := performed h.auto h.userAssignment call
  refine ⟨p.auto.trans h.auto, p.userAssignment.trans h.userAssignment, p.nulFree h.nulFree, ?_⟩
  intro tp htp
  have hassignment : (s.client.performGroup call).consumer.assignment = s.client.ownedAfter call :=
    p.assignment
  rw [hassignment]
  rcases p.mem_stored.mp htp with ⟨r, hr, rfl⟩ | hbefore
  · -- a record just returned
    refine ⟨hkeeps.returned r hr, Finset.mem_union_right _ ?_⟩
    exact List.mem_toFinset.mpr (List.mem_map_of_mem hr)
  · -- an offset stored before, and not taken meanwhile
    have hnot := hkeeps.stored tp hbefore
    obtain ⟨howned, hfresh⟩ := h.owned tp (p.kept tp hbefore)
    exact ⟨mem_owned_of_not_taken howned hnot,
      Finset.mem_union_left _ (Finset.mem_sdiff.mpr ⟨hfresh, hnot⟩)⟩

/-- A call that serves rebalances with offsets stored returns no records. -/
theorem returns_of_taken {c : Client Cb} (hauto : c.consumer.enableAutoCommit = true)
    {call : GroupCall Cb} {tp : TopicPartition}
    (htp : tp ∈ (c.serving call).1.consumer.offsetsToStore) (htaken : tp ∈ c.takenBy call) :
    c.returns call = [] := by
  cases call with
  | poll respErr events fetched =>
    -- either nothing is stored, or the commit failed and nothing is served
    unfold Client.takenBy at htaken
    unfold Client.serving at htp htaken
    rcases commitStored_cases c.consumer hauto .Async respErr with
      ⟨hnone, heq⟩ | ⟨-, m, result, ⟨rfl, rfl⟩ | ⟨rfl, e, rfl⟩, heq⟩ <;>
      simp only [heq] at htp htaken
    · simp [hnone] at htp
    · simp at htp
    · simp [throughFailure, taken] at htaken
  | _ => rfl

/-- After a call that does take something stored away, or returns a record of a partition not
owned, the next `close` commits it. -/
theorem StoredOwned.lost {s s' : Owning Cb} {call : GroupCall Cb} (h : StoredOwned s)
    (hbreaks : ¬ KeepsStored s call) (hstep : stepOwned s call = some s') (respErr : RespErr) :
    ¬ CommitsOwned s' (.close respErr []) := by
  obtain rfl := Option.some.inj hstep
  have p := performed h.auto h.userAssignment call
  have hauto := p.auto.trans h.auto
  have hnul := p.nulFree h.nulFree
  intro hcommits
  -- whatever is stored would be owned, as the `close` commits it
  have howned : ∀ tp ∈ (s.client.performGroup call).consumer.offsetsToStore,
      tp ∈ (s.client.performGroup call).consumer.assignment ∧
        tp ∈ (s.fresh \ s.client.takenBy call)
          ∪ ((s.client.returns call).map ConsumerRecord.topicPartition).toFinset := by
    intro tp htp
    obtain ⟨request, hrequest, offsets, hoffsets, e, he, rfl⟩ :=
      close_commits hauto hnul htp respErr
    exact hcommits request hrequest offsets hoffsets e he
  refine hbreaks ⟨fun tp htp htaken => ?_, fun r hr => ?_⟩
  · obtain ⟨-, hfresh⟩ := howned tp (p.mem_stored.mpr (.inr htp))
    rw [returns_of_taken h.auto htp htaken] at hfresh
    simp [htaken] at hfresh
  · have hin := (howned r.topicPartition (p.mem_stored.mpr (.inl ⟨r, hr, rfl⟩))).1
    rwa [p.assignment] at hin

/-! ## §5. Every run. -/

/-- **Auto-commit keeps to the partitions owned** in every run in which no rebalance takes away
a partition whose offset is stored meanwhile, and every record returned is of a partition in
`_assignment`.  After such a run, a call that does otherwise makes the next `close` commit for a
partition not owned. -/
theorem run_commits_owned (calls : List (GroupCall Cb))
    (hok : Along stepOwned KeepsStored ({} : Owning Cb) calls) :
    Along stepOwned CommitsOwned ({} : Owning Cb) calls ∧
    (∀ s call respErr, run stepOwned ({} : Owning Cb) calls = some s → ¬ KeepsStored s call →
      ¬ Along stepOwned CommitsOwned ({} : Owning Cb) (calls ++ [call, .close respErr []])) := by
  have hkeeps : ∀ (s : Owning Cb) (call : GroupCall Cb) (s' : Owning Cb),
      StoredOwned s → KeepsStored s call → stepOwned s call = some s' → StoredOwned s' :=
    fun _ _ _ => stepOwned_keeps
  refine ⟨?_, fun s call respErr hrun hbreaks hall => ?_⟩
  · exact Along.imp (fun s call _ h _ => StoredOwned.commitsOwned h call)
      (fun s call _ => hkeeps s call) storedOwned_start hok
  · have h : StoredOwned s := run_invariant_along hkeeps storedOwned_start hok hrun
    have htail := (Along.append.mp hall).2 s hrun
    exact h.lost hbreaks rfl respErr (htail.2 _ rfl).1

/-- `t-0` comes and a record of it, and while it is polled for more, `t-0` goes. -/
def revokedInPoll : List (GroupCall Unit) :=
  [.subscribe {"t"} none {}
      [[⟨RD_KAFKA_RESP_ERR__ASSIGN_PARTITIONS, some [⟨c_str "t", 0, 0⟩], some "EAGER", {}⟩]],
    .poll RD_KAFKA_RESP_ERR_NO_ERROR [] (.ok [⟨c_str "t", 0, 5, RD_KAFKA_RESP_ERR_NO_ERROR⟩]),
    .poll RD_KAFKA_RESP_ERR_NO_ERROR
      [⟨RD_KAFKA_RESP_ERR__REVOKE_PARTITIONS, some [⟨c_str "t", 0, 0⟩], some "EAGER", {}⟩] (.ok []),
    .close RD_KAFKA_RESP_ERR_NO_ERROR []]

theorem run_commits_owned_revokedInPoll :
    Along stepOwned CommitsOwned ({} : Owning Unit) revokedInPoll :=
  (run_commits_owned revokedInPoll (by decide +kernel)).1

/-- The same, but `t-0` goes while the consumer unsubscribes. -/
def revokedInUnsubscribe : List (GroupCall Unit) :=
  [.subscribe {"t"} none {}
      [[⟨RD_KAFKA_RESP_ERR__ASSIGN_PARTITIONS, some [⟨c_str "t", 0, 0⟩], some "EAGER", {}⟩]],
    .poll RD_KAFKA_RESP_ERR_NO_ERROR [] (.ok [⟨c_str "t", 0, 5, RD_KAFKA_RESP_ERR_NO_ERROR⟩]),
    .unsubscribe {}
      [[⟨RD_KAFKA_RESP_ERR__REVOKE_PARTITIONS, some [⟨c_str "t", 0, 0⟩], some "EAGER", {}⟩]],
    .close RD_KAFKA_RESP_ERR_NO_ERROR []]

/-- The `close` commits 6 for `t-0`, which is no longer assigned. -/
theorem revoked_then_committed :
    ¬ ∀ calls : List (GroupCall Unit), Along stepOwned CommitsOwned {} calls := by
  intro h
  exact absurd (h revokedInUnsubscribe) (by decide +kernel)

end ModernCppKafka.Consumer
