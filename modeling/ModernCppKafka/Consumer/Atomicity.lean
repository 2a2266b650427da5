/-
  ModernCppKafka.Consumer.Atomicity — what a failing operation leaves behind.

  The operations write their members before they look at librdkafka's answer, so an operation
  that fails leaves them as they were only when it asked for what they already held
  (`Untouched`).  In runs whose failing calls do, the consumer keeps agreeing with librdkafka.

  Main results:
    * `unchanged_iff`     — a failing call changes no member exactly when `Untouched`;
    * `step_agrees`       — one call, good or harmless, keeps the agreement;
    * `failed_calls_iff`  — both, over every run.
-/
import ModernCppKafka.Consumer.Assignment
import ModernCppKafka.Lib.Run

namespace ModernCppKafka.Consumer

open ModernCppKafka.Lib.Run

variable {Cb : Type}

/-! ## §1. Runs. -/

/-- A call with librdkafka's answers to it; `rebalance` stands for an event served by `poll` or
`close`. -/
inductive AssignmentCall (Cb : Type) where
  | subscribe (topics : Topics) (rebalanceCallback : Option Cb) (answer : Error)
      (rounds : List (List Rebalance))
  | unsubscribe (answer : Error) (rounds : List (List Rebalance))
  | assign (topicPartitions : TopicPartitions) (answer : Error)
  | rebalance (r : Rebalance)

namespace Client

/-- The client after a call, and how the call ends. -/
def perform (c : Client Cb) : AssignmentCall Cb → Client Cb × Except Failure Unit
  | .subscribe topics rebalanceCallback answer rounds =>
    match c.subscribe topics rebalanceCallback answer rounds with
    | (c, _, result) => (c, result)
  | .unsubscribe answer rounds =>
    match c.unsubscribe answer rounds with
    | (c, _, result) => (c, result)
  | .assign topicPartitions answer =>
    match c.assign topicPartitions answer with
    | (c, _, result) => (c, result)
  | .rebalance r =>
    match c.onRebalance r with
    | (c, _, .error e) => (c, .error (.rdKafka e))
    | (c, _, .ok ()) => (c, .ok ())

/-- A run of calls takes every call as it ends. -/
def stepClient (c : Client Cb) (call : AssignmentCall Cb) : Option (Client Cb) :=
  some (c.perform call).1

/-- The call throws because a librdkafka call returned an error. -/
def FailsInRdKafka (c : Client Cb) (call : AssignmentCall Cb) : Prop :=
  ∃ e, (c.perform call).2 = .error (.rdKafka e)

end Client

/-- The four members the operations write have the same values. -/
structure SameMembers (q q' : KafkaConsumer Cb) : Prop where
  userSubscription : q'.userSubscription = q.userSubscription
  userAssignment : q'.userAssignment = q.userAssignment
  assignment : q'.assignment = q.assignment
  rebalanceCb : q'.rebalanceCb = q.rebalanceCb

/-- What `assign` and the `unsubscribe` of a manual assignment ask of `_assignment`. -/
def KafkaConsumer.assignEvent (q : KafkaConsumer Cb) : PartitionsRebalanceEvent :=
  if q.isCooperativeEnabled then .IncrementalAssign else .Assign

def KafkaConsumer.unassignEvent (q : KafkaConsumer Cb) : PartitionsRebalanceEvent :=
  if q.isCooperativeEnabled then .IncrementalUnassign else .Revoke

/-- The call asks for nothing the members do not hold.  A `subscribe` that librdkafka accepts
fails in a rebalance served while it waits; up to that one they must come to nothing. -/
def Untouched (c : Client Cb) : AssignmentCall Cb → Prop
  | .subscribe topics rebalanceCallback answer rounds =>
    topics = c.consumer.userSubscription ∧ rebalanceCallback = c.consumer.rebalanceCb ∧
      (answer.toBool = false →
        ((throughFailure rounds.flatten).foldl Membership.after c.membership).owned
          = c.consumer.assignment)
  | .unsubscribe _ _ =>
    c.consumer.userAssignment ≠ ∅ ∧
      c.consumer.unassignEvent.apply c.consumer.assignment c.consumer.userAssignment
        = c.consumer.assignment
  | .assign topicPartitions _ =>
    topicPartitions = c.consumer.userAssignment ∧
      c.consumer.assignEvent.apply c.consumer.assignment topicPartitions = c.consumer.assignment
  | .rebalance r => (c.membership.after r).owned = c.consumer.assignment

/-! ## §2. A failing call. -/

namespace Client

/-- The state `subscribe` asks librdkafka in. -/
def subscribing (c : Client Cb) (topics : Topics) (cb : Option Cb) (answer : Error) :
    Client Cb where
  consumer := { c.consumer with userSubscription := topics, rebalanceCb := cb }
  rk := c.rk.rd_kafka_subscribe answer (createRkTopicPartitionListOfTopics topics)

/-- The three ways through `subscribe`. -/
theorem subscribe_cases (c : Client Cb) (topics : Topics) (cb : Option Cb) (answer : Error)
    (rounds : List (List Rebalance)) :
    ((c.subscribe topics cb answer rounds).1 = c ∧
      ¬ c.FailsInRdKafka (.subscribe topics cb answer rounds)) ∨
    (answer.toBool = true ∧
      (c.subscribe topics cb answer rounds).1 = c.subscribing topics cb answer ∧
      c.FailsInRdKafka (.subscribe topics cb answer rounds)) ∨
    (answer.toBool = false ∧ ∃ served rest, rounds.flatten = served ++ rest ∧
      Served (c.subscribing topics cb answer) (c.subscribe topics cb answer rounds).1 served ∧
      (c.FailsInRdKafka (.subscribe topics cb answer rounds) ↔ ∃ r ∈ served, r.Fails)) := by
  unfold FailsInRdKafka perform
  dsimp only
  unfold subscribe
  by_cases hua : c.consumer.userAssignment ≠ ∅
  · rw [if_pos hua]
    exact .inl ⟨rfl, by simp⟩
  rw [if_neg hua]
  by_cases hskip : c.consumer.isCooperativeEnabled ∧ topics = c.consumer.userSubscription
  · rw [if_pos hskip]
    exact .inl ⟨rfl, by simp⟩
  rw [if_neg hskip]
  cases herr : answer.toBool with
  | true =>
    rw [throwIfWithError_of_true herr]
    exact .inr (.inl ⟨rfl, rfl, _, rfl⟩)
  | false =>
    rw [throwIfWithError_of_false herr]
    exact .inr (.inr ⟨rfl, (c.subscribing topics cb answer).waitFor_served _ _ _⟩)

/-- The state `unsubscribe` asks librdkafka in, when there is no manual assignment. -/
def unsubscribing (c : Client Cb) (answer : Error) : Client Cb where
  consumer := { c.consumer with userSubscription := ∅ }
  rk := c.rk.rd_kafka_unsubscribe answer

/-- The ways through `unsubscribe`. -/
theorem unsubscribe_cases (c : Client Cb) (answer : Error) (rounds : List (List Rebalance)) :
    (c.consumer.userSubscription = ∅ ∧ c.consumer.userAssignment = ∅ ∧
      c.unsubscribe answer rounds = (c, [], .ok ())) ∨
    (c.consumer.userAssignment ≠ ∅ ∧ ∃ c', c' = (c.changeAssignment c.consumer.unassignEvent
        c.consumer.userAssignment answer).1 ∧
      ((answer.toBool = true ∧ c.unsubscribe answer rounds =
          (c', [], .error (.rdKafka (.ofError answer.copy)))) ∨
        (answer.toBool = false ∧ c.unsubscribe answer rounds =
          (c'.modify ({ · with userAssignment := ∅ }), [], .ok ())))) ∨
    (c.consumer.userSubscription ≠ ∅ ∧ c.consumer.userAssignment = ∅ ∧
      ((answer.toBool = true ∧ c.unsubscribe answer rounds =
          (c.unsubscribing answer, [], .error (.rdKafka (.ofError answer)))) ∨
        (answer.toBool = false ∧ ∃ served rest, rounds.flatten = served ++ rest ∧
          Served (c.unsubscribing answer) (c.unsubscribe answer rounds).1 served))) := by
  unfold unsubscribe
  by_cases hskip : c.consumer.userSubscription = ∅ ∧ c.consumer.userAssignment = ∅
  · rw [if_pos hskip]
    exact .inl ⟨hskip.1, hskip.2, rfl⟩
  rw [if_neg hskip]
  by_cases hua : c.consumer.userAssignment ≠ ∅
  · rw [if_pos hua]
    refine .inr (.inl ⟨hua, _, rfl, ?_⟩)
    rcases c.changeAssignment_cases c.consumer.unassignEvent c.consumer.userAssignment answer with
      ⟨herr, heq⟩ | ⟨herr, heq⟩ <;> unfold KafkaConsumer.unassignEvent at heq ⊢ <;> rw [heq]
    · exact .inl ⟨herr, rfl⟩
    · exact .inr ⟨herr, rfl⟩
  · rw [if_neg hua]
    have hua' : c.consumer.userAssignment = ∅ := by simpa using hua
    refine .inr (.inr ⟨fun h => hskip ⟨h, hua'⟩, hua', ?_⟩)
    cases herr : answer.toBool with
    | true =>
      rw [throwIfWithError_of_true herr]
      exact .inl ⟨rfl, rfl⟩
    | false =>
      rw [throwIfWithError_of_false herr]
      obtain ⟨served, rest, hflat, hs, -⟩ := (c.unsubscribing answer).waitFor_served
        .PartitionsRevocation rounds "unsubscribe() timed out!"
      exact .inr ⟨rfl, served, rest, hflat, hs⟩

/-- The ways through `assign`. -/
theorem assign_cases (c : Client Cb) (tps : TopicPartitions) (answer : Error) :
    ((c.assign tps answer).1 = c ∧ (∃ e, (c.assign tps answer).2.2 = .error (.misuse e))) ∨
    (∃ c', c' = ((c.modify ({ · with userAssignment := tps })).changeAssignment
        c.consumer.assignEvent tps answer).1 ∧
      ((answer.toBool = true ∧
          c.assign tps answer = (c', [], .error (.rdKafka (.ofError answer.copy)))) ∨
        (answer.toBool = false ∧ c.assign tps answer = (c', [], .ok ())))) := by
  unfold assign
  by_cases hus : c.consumer.userSubscription ≠ ∅
  · rw [if_pos hus]
    exact .inl ⟨rfl, _, rfl⟩
  rw [if_neg hus]
  refine .inr ⟨_, rfl, ?_⟩
  rcases (c.modify ({ · with userAssignment := tps })).changeAssignment_cases
    c.consumer.assignEvent tps answer with ⟨herr, heq⟩ | ⟨herr, heq⟩ <;>
    unfold KafkaConsumer.assignEvent at heq ⊢ <;> rw [heq]
  · exact .inl ⟨herr, rfl⟩
  · exact .inr ⟨herr, rfl⟩

theorem subscribe_unchanged_iff {c : Client Cb} {topics : Topics} {cb : Option Cb} {answer : Error}
    {rounds : List (List Rebalance)}
    (h : c.FailsInRdKafka (.subscribe topics cb answer rounds)) :
    SameMembers c.consumer (c.subscribe topics cb answer rounds).1.consumer ↔
      Untouched c (.subscribe topics cb answer rounds) := by
  rcases c.subscribe_cases topics cb answer rounds with
    ⟨-, hno⟩ | ⟨herr, hc, -⟩ | ⟨herr, served, rest, hflat, hs, hiff⟩
  · exact absurd h hno
  · rw [hc]
    exact ⟨fun hsame => ⟨hsame.userSubscription, hsame.rebalanceCb, fun hok => by simp_all⟩,
      fun hun => ⟨hun.1, rfl, rfl, hun.2.1⟩⟩
  · -- the events served decide what becomes of `_assignment`
    have hown : (c.subscribe topics cb answer rounds).1.consumer.assignment =
        ((throughFailure rounds.flatten).foldl Membership.after c.membership).owned := by
      rw [hflat, throughFailure_append (hiff.mp h)]
      exact congrArg Membership.owned hs.membership
    have husub : (c.subscribe topics cb answer rounds).1.consumer.userSubscription = topics :=
      hs.user.userSubscription
    have hcb : (c.subscribe topics cb answer rounds).1.consumer.rebalanceCb = cb :=
      hs.user.rebalanceCb
    constructor
    · intro hsame
      exact ⟨husub.symm.trans hsame.userSubscription, hcb.symm.trans hsame.rebalanceCb,
        fun _ => hown.symm.trans hsame.assignment⟩
    · intro hun
      exact ⟨husub.trans hun.1, hs.user.userAssignment, hown.trans (hun.2.2 herr),
        hcb.trans hun.2.1⟩

theorem unsubscribe_unchanged_iff {c : Client Cb} {answer : Error}
    {rounds : List (List Rebalance)} (h : c.FailsInRdKafka (.unsubscribe answer rounds)) :
    SameMembers c.consumer (c.unsubscribe answer rounds).1.consumer ↔
      Untouched c (.unsubscribe answer rounds) := by
  obtain ⟨e, he⟩ : ∃ e, (c.unsubscribe answer rounds).2.2 = .error (.rdKafka e) := h
  rcases c.unsubscribe_cases answer rounds with
    ⟨-, -, hskip⟩ | ⟨hua, c', hc', ⟨-, heq⟩ | ⟨-, heq⟩⟩ | ⟨hus, hua, hrest⟩
  · simp [hskip] at he
  · rw [heq, hc', changeAssignment_consumer]
    exact ⟨fun hsame => ⟨hua, hsame.assignment⟩, fun hun => ⟨rfl, rfl, hun.2, rfl⟩⟩
  · simp [heq] at he
  · -- `_userSubscription` is cleared before librdkafka is asked
    have hcleared : (c.unsubscribe answer rounds).1.consumer.userSubscription = ∅ := by
      rcases hrest with ⟨-, heq⟩ | ⟨-, served, rest, -, hs⟩
      · rw [heq]
        rfl
      · exact hs.user.userSubscription
    refine iff_of_false (fun hsame => hus ?_) (fun hun => hun.1 hua)
    rw [← hsame.userSubscription, hcleared]

theorem assign_unchanged_iff {c : Client Cb} {tps : TopicPartitions} {answer : Error}
    (h : c.FailsInRdKafka (.assign tps answer)) :
    SameMembers c.consumer (c.assign tps answer).1.consumer ↔ Untouched c (.assign tps answer) := by
  obtain ⟨e, he⟩ : ∃ e, (c.assign tps answer).2.2 = .error (.rdKafka e) := h
  rcases c.assign_cases tps answer with ⟨-, e', hmis⟩ | ⟨c', hc', ⟨-, heq⟩ | ⟨-, heq⟩⟩
  · simp [hmis] at he
  · rw [heq, hc', changeAssignment_consumer]
    exact ⟨fun hsame => ⟨hsame.userAssignment, hsame.assignment⟩,
      fun hun => ⟨rfl, hun.1, hun.2, rfl⟩⟩
  · simp [heq] at he

/-- **A failing call leaves the members as they were exactly when it asks for nothing new.** -/
theorem unchanged_iff {c : Client Cb} {call : AssignmentCall Cb} (h : c.FailsInRdKafka call) :
    SameMembers c.consumer (c.perform call).1.consumer ↔ Untouched c call := by
  cases call with
  | subscribe topics cb answer rounds => exact subscribe_unchanged_iff h
  | unsubscribe answer rounds => exact unsubscribe_unchanged_iff h
  | assign tps answer => exact assign_unchanged_iff h
  | rebalance r =>
    have hmem := congrArg Membership.owned (c.onRebalance_membership r)
    have huser := c.onRebalance_user r
    have hsame : SameMembers c.consumer (c.onRebalance r).1.consumer ↔
        (c.membership.after r).owned = c.consumer.assignment :=
      ⟨fun hs => hmem.symm.trans hs.assignment, fun hown =>
        ⟨huser.userSubscription, huser.userAssignment, hmem.trans hown, huser.rebalanceCb⟩⟩
    refine Iff.trans (iff_of_eq ?_) hsame
    unfold perform
    dsimp only
    rcases c.onRebalance r with ⟨c', invocations, e | ⟨⟩⟩ <;> rfl

end Client

/-! ## §3. The agreement with librdkafka. -/

/-- `manual` is the argument of the last `assign` that returned, until an `unsubscribe` does. -/
structure Agrees (c : Client Cb) (manual : TopicPartitions) : Prop where
  assignment : c.consumer.assignment = c.rk.assignment
  subscription : c.consumer.userSubscription = c.rk.subscription
  manual_eq : c.consumer.userAssignment = manual
  nulFree : ∀ tp ∈ c.consumer.userAssignment, NulFree tp.first

/-- `manual` after a call. -/
def manualAfter (c : Client Cb) (manual : TopicPartitions) (call : AssignmentCall Cb) :
    TopicPartitions :=
  match call, (c.perform call).2 with
  | .assign topicPartitions _, .ok () => topicPartitions
  | .unsubscribe _ _, .ok () => ∅
  | _, _ => manual

/-- One call on the client, and on the mode the user has put it in. -/
def stepCall (s : Client Cb × TopicPartitions) (call : AssignmentCall Cb) :
    Option (Client Cb × TopicPartitions) :=
  some ((s.1.perform call).1, manualAfter s.1 s.2 call)

/-- The topics a call names are C strings. -/
def AssignmentCall.NulFreeNames : AssignmentCall Cb → Prop
  | .subscribe topics _ _ _ => ∀ topic ∈ topics, NulFree topic
  | .assign topicPartitions _ => ∀ tp ∈ topicPartitions, NulFree tp.first
  | _ => True

/-- The rebalance events that may be served during a call. -/
def AssignmentCall.events : AssignmentCall Cb → List Rebalance
  | .subscribe _ _ _ rounds => rounds.flatten
  | .unsubscribe _ rounds => rounds.flatten
  | .assign _ _ => []
  | .rebalance r => [r]

/-- A failing call asks for nothing new, and neither does any failing rebalance. -/
structure MeetsCondition (s : Client Cb × TopicPartitions) (call : AssignmentCall Cb) : Prop where
  names : call.NulFreeNames
  untouched : s.1.FailsInRdKafka call → Untouched s.1 call
  harmless : Harmless s.1.membership call.events

theorem Agrees.inStep {c : Client Cb} {manual : TopicPartitions} (h : Agrees c manual) :
    c.InStep := h.assignment

/-- Serving events keeps the agreement. -/
theorem Agrees.served {c c' : Client Cb} {manual : TopicPartitions} (h : Agrees c manual)
    {served rest : List Rebalance} (hs : Client.Served c c' served)
    (hh : Harmless c.membership (served ++ rest)) : Agrees c' manual where
  assignment := hs.inStep h.inStep hh.of_append
  subscription := hs.user.userSubscription.trans (h.subscription.trans hs.subscription.symm)
  manual_eq := hs.user.userAssignment.trans h.manual_eq
  nulFree := hs.user.userAssignment ▸ h.nulFree

theorem Agrees.subscribe {c : Client Cb} {manual : TopicPartitions} (h : Agrees c manual)
    {topics : Topics} {cb : Option Cb} {answer : Error} {rounds : List (List Rebalance)}
    (hc : MeetsCondition (c, manual) (.subscribe topics cb answer rounds)) :
    Agrees (c.subscribe topics cb answer rounds).1 manual := by
  rcases c.subscribe_cases topics cb answer rounds with
    ⟨heq, -⟩ | ⟨herr, heq, hfails⟩ | ⟨herr, served, rest, hflat, hs, -⟩
  · rwa [heq]
  · have htopics : topics = c.consumer.userSubscription := (hc.untouched hfails).1
    have hrk : (c.subscribing topics cb answer).rk = c.rk := if_pos herr
    rw [heq]
    exact ⟨hrk ▸ h.assignment, htopics.trans (hrk ▸ h.subscription), h.manual_eq, h.nulFree⟩
  · have hrk : (c.subscribing topics cb answer).rk = { c.rk with subscription := topics } := by
      simp only [Client.subscribing, RdKafka.rd_kafka_subscribe, RdKafka.unlessError, herr,
        getTopics_createRk hc.names]
      rfl
    have hsub : Agrees (c.subscribing topics cb answer) manual :=
      ⟨hrk ▸ h.assignment, hrk ▸ rfl, h.manual_eq, h.nulFree⟩
    have hharm : Harmless c.membership rounds.flatten := hc.harmless
    rw [hflat] at hharm
    exact hsub.served hs hharm

/-- Changing the assignment keeps it librdkafka's, if librdkafka agrees or nothing changes; the
subscriptions and `_userAssignment` stay. -/
theorem changeAssignment_inStep {c : Client Cb} (h : c.InStep)
    (hsub : c.consumer.userSubscription = c.rk.subscription) (event : PartitionsRebalanceEvent)
    {tps : TopicPartitions} (hnul : ∀ tp ∈ tps, NulFree tp.first) (answer : Error)
    (hsame : answer.toBool = true → event.apply c.consumer.assignment tps = c.consumer.assignment)
    {c' : Client Cb} (hc' : c' = (c.changeAssignment event tps answer).1) :
    c'.InStep ∧ c'.consumer.userSubscription = c'.rk.subscription ∧
      c'.consumer.userAssignment = c.consumer.userAssignment := by
  subst hc'
  rw [Client.InStep, Client.changeAssignment_consumer, Client.changeAssignment_rk _ _ hnul,
    RdKafka.unlessError]
  cases herr : answer.toBool with
  | true =>
    rw [if_pos rfl]
    exact ⟨(hsame herr).trans h, hsub, rfl⟩
  | false =>
    rw [if_neg (by simp)]
    exact ⟨congrArg (event.apply · tps) h, hsub, rfl⟩

theorem Agrees.unsubscribe {c : Client Cb} {manual : TopicPartitions} (h : Agrees c manual)
    {answer : Error} {rounds : List (List Rebalance)}
    (hc : MeetsCondition (c, manual) (.unsubscribe answer rounds)) :
    Agrees (c.unsubscribe answer rounds).1
      (manualAfter c manual (.unsubscribe answer rounds)) := by
  unfold manualAfter Client.perform
  dsimp only
  rcases c.unsubscribe_cases answer rounds with
    ⟨-, hua, heq⟩ | ⟨hua, c', hc', hrest⟩ | ⟨hus, hua, hrest⟩
  · rw [heq]
    exact ⟨h.assignment, h.subscription, hua, h.nulFree⟩
  · have hsame : answer.toBool = true →
        c.consumer.unassignEvent.apply c.consumer.assignment c.consumer.userAssignment
          = c.consumer.assignment := by
      intro herr
      have hfails : c.FailsInRdKafka (.unsubscribe answer rounds) := by
        rcases hrest with ⟨-, heq⟩ | ⟨hok, -⟩
        · exact ⟨_, congrArg (·.2.2) heq⟩
        · simp [herr] at hok
      exact (hc.untouched hfails).2
    obtain ⟨hin, hsub, huser⟩ := changeAssignment_inStep h.inStep h.subscription
      c.consumer.unassignEvent h.nulFree answer hsame hc'
    rcases hrest with ⟨-, heq⟩ | ⟨-, heq⟩ <;> rw [heq]
    · exact ⟨hin, hsub, huser.trans h.manual_eq, huser ▸ h.nulFree⟩
    · exact ⟨hin, hsub, rfl, by simp [Client.modify]⟩
  · have hmanual : manual = ∅ := h.manual_eq.symm.trans hua
    have hnil : ∀ result : Except Failure Unit,
        (match (AssignmentCall.unsubscribe answer rounds : AssignmentCall Cb), result with
          | .assign topicPartitions _, .ok () => topicPartitions
          | .unsubscribe _ _, .ok () => ∅
          | _, _ => manual) = manual := by
      rintro (_ | ⟨⟩)
      · rfl
      · exact hmanual.symm
    rcases hrest with ⟨herr, heq⟩ | ⟨herr, served, rest, hflat, hs⟩
    · have hfails : c.FailsInRdKafka (.unsubscribe answer rounds) := ⟨_, congrArg (·.2.2) heq⟩
      exact absurd hua (hc.untouched hfails).1
    · have hrk : (c.unsubscribing answer).rk = { c.rk with subscription := ∅ } := by
        simp [Client.unsubscribing, RdKafka.rd_kafka_unsubscribe, RdKafka.unlessError, herr]
      have hsub : Agrees (c.unsubscribing answer) manual :=
        ⟨hrk ▸ h.assignment, hrk ▸ rfl, h.manual_eq, h.nulFree⟩
      have hharm : Harmless c.membership rounds.flatten := hc.harmless
      rw [hflat] at hharm
      exact (hnil (c.unsubscribe answer rounds).2.2).symm ▸ hsub.served hs hharm

theorem Agrees.assign {c : Client Cb} {manual : TopicPartitions} (h : Agrees c manual)
    {tps : TopicPartitions} {answer : Error}
    (hc : MeetsCondition (c, manual) (.assign tps answer)) :
    Agrees (c.assign tps answer).1 (manualAfter c manual (.assign tps answer)) := by
  unfold manualAfter Client.perform
  dsimp only
  rcases c.assign_cases tps answer with ⟨heq, e, hmis⟩ | ⟨c', hc', hrest⟩
  · rw [heq, hmis]
    exact h
  · have hfails : answer.toBool = true → c.FailsInRdKafka (.assign tps answer) := fun herr => by
      rcases hrest with ⟨-, heq⟩ | ⟨hok, -⟩
      · exact ⟨_, congrArg (·.2.2) heq⟩
      · simp [herr] at hok
    -- `_userAssignment` is set before librdkafka is asked
    have hset : (c.modify ({ · with userAssignment := tps })).InStep := h.inStep
    obtain ⟨hin, hsub, huser⟩ := changeAssignment_inStep hset h.subscription
      c.consumer.assignEvent hc.names answer (fun herr => (hc.untouched (hfails herr)).2) hc'
    have htps : c'.consumer.userAssignment = tps := huser
    rcases hrest with ⟨herr, heq⟩ | ⟨-, heq⟩ <;> rw [heq]
    · have hsame : tps = c.consumer.userAssignment := (hc.untouched (hfails herr)).1
      exact ⟨hin, hsub, htps.trans (hsame.trans h.manual_eq), htps ▸ hc.names⟩
    · exact ⟨hin, hsub, htps, htps ▸ hc.names⟩

/-- One call that meets the condition. -/
theorem step_agrees (s : Client Cb × TopicPartitions) (call : AssignmentCall Cb)
    (s' : Client Cb × TopicPartitions) (h : Agrees s.1 s.2) (hc : MeetsCondition s call)
    (hstep : stepCall s call = some s') : Agrees s'.1 s'.2 := by
  obtain ⟨c, manual⟩ := s
  obtain rfl : ((c.perform call).1, manualAfter c manual call) = s' := by
    simpa [stepCall] using hstep
  cases call with
  | subscribe topics cb answer rounds => exact h.subscribe hc
  | unsubscribe answer rounds => exact h.unsubscribe hc
  | assign tps answer => exact h.assign hc
  | rebalance r =>
    have hserved : Agrees (c.onRebalance r).1 manual := by
      obtain ⟨hs, -⟩ := c.serve_served [r]
      have hone : (c.serve [r]).1 = (c.onRebalance r).1 := by
        rw [Client.serve]
        rcases c.onRebalance r with ⟨c', invocations, e | ⟨⟩⟩ <;> rfl
      have hharm : Harmless c.membership ([r] ++ []) := hc.harmless
      exact hone ▸ h.served hs hharm
    unfold manualAfter Client.perform
    dsimp only
    rcases hx : c.onRebalance r with ⟨c', invocations, e | ⟨⟩⟩ <;> rw [hx] at hserved <;>
      exact hserved

/-! ## §4. Every run. -/

/-- A consumer no call has been made on. -/
def freshClient : Client Cb × TopicPartitions := ({}, ∅)

theorem agrees_fresh : Agrees (freshClient : Client Cb × TopicPartitions).1 ∅ :=
  ⟨rfl, rfl, rfl, by simp [freshClient]⟩

/-- **Failing calls, over every run.**  At every state reached a call that fails in librdkafka
leaves the members as they were exactly when it asks for nothing they do not hold; and in runs
whose failing calls and rebalances all do, the consumer's assignment and mode stay the real
ones. -/
theorem failed_calls_iff (calls : List (AssignmentCall Cb)) (s : Client Cb × TopicPartitions)
    (hrun : run stepCall freshClient calls = some s) :
    (∀ call, s.1.FailsInRdKafka call →
      (SameMembers s.1.consumer (s.1.perform call).1.consumer ↔ Untouched s.1 call)) ∧
    (Along stepCall MeetsCondition freshClient calls → Agrees s.1 s.2) :=
  ⟨fun _ => Client.unchanged_iff,
    fun hok => run_invariant_along step_agrees agrees_fresh hok hrun⟩

/-- The partition `t-0`, as the user names it. -/
def t0 : TopicPartitions := {⟨"t", 0⟩}

/-- An `assign` that succeeds, and the same one refused. -/
def assignTwice : List (AssignmentCall Unit) :=
  [.assign t0 {}, .assign t0 (.ofRespErr RD_KAFKA_RESP_ERR__FAIL)]

theorem nulFree_t0 : ∀ tp ∈ t0, NulFree tp.first := by
  intro tp htp
  obtain rfl : tp = ⟨"t", 0⟩ := by simpa [t0] using htp
  decide +kernel

theorem failed_calls_iff_assignTwice :
    ∃ s, run stepCall freshClient assignTwice = some s ∧ Agrees s.1 s.2 ∧
      (SameMembers s.1.consumer
          (s.1.perform (.assign t0 (.ofRespErr RD_KAFKA_RESP_ERR__FAIL))).1.consumer ↔
        Untouched s.1 (.assign t0 (.ofRespErr RD_KAFKA_RESP_ERR__FAIL))) := by
  obtain ⟨hcalls, hagrees⟩ := failed_calls_iff assignTwice _ rfl
  refine ⟨_, rfl, hagrees ⟨⟨nulFree_t0, ?_, trivial⟩, ?_⟩, hcalls _ ⟨_, rfl⟩⟩
  · rintro ⟨e, he⟩
    cases he
  · rintro s' hs'
    obtain rfl := Option.some.inj hs'
    refine ⟨⟨nulFree_t0, fun _ => ⟨rfl, rfl⟩, trivial⟩, fun _ _ => trivial⟩

/-- Refused on a fresh consumer, `assign` leaves `t-0` in both members. -/
theorem refused_assign_stays :
    ¬ ∀ (calls : List (AssignmentCall Unit)) (s : Client Unit × TopicPartitions)
      (call : AssignmentCall Unit), run stepCall freshClient calls = some s →
        s.1.FailsInRdKafka call →
          SameMembers s.1.consumer (s.1.perform call).1.consumer := by
  intro h
  have hsame := h [] freshClient (.assign t0 (.ofRespErr RD_KAFKA_RESP_ERR__FAIL)) rfl ⟨_, rfl⟩
  have : t0 = ∅ := hsame.userAssignment
  simp [t0] at this

end ModernCppKafka.Consumer
