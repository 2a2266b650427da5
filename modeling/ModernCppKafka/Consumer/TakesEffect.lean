/-
  ModernCppKafka.Consumer.TakesEffect — does a normal return mean that the call took effect?

  `subscribe` and `unsubscribe` return at once when `_userSubscription` says that there is
  nothing to do.  That member is written before librdkafka is asked, so after a call that was
  refused it names topics librdkafka has not accepted, and the same call made again returns
  without asking (`refused_subscribe_skipped`).

  Main results:
    * `takesEffect_iff`      — one call;
    * `run_takesEffect_iff`  — every run: exactly when the calls that return at once do so with
      `_userSubscription` as librdkafka has it, as in every run without a refused call.
-/
import ModernCppKafka.Consumer.Atomicity

namespace ModernCppKafka.Consumer

open ModernCppKafka.Lib.Run

variable {Cb : Type}

/-! ## §1. Taking effect. -/

/-- If the call returns normally, librdkafka has the subscription it asks for, and the callback
is the one given. -/
def TakesEffect (c : Client Cb) (call : AssignmentCall Cb) : Prop :=
  (c.perform call).2 = .ok () →
    match call with
    | .subscribe topics rebalanceCallback _ _ =>
      (c.perform call).1.rk.subscription = topics ∧
        (c.perform call).1.consumer.rebalanceCb = rebalanceCallback
    | .unsubscribe _ _ => (c.perform call).1.rk.subscription = ∅
    | _ => True

/-- An ASSIGN arrives in a turn of the loop before which, and in which, no event fails. -/
def Arrives : List (List Rebalance) → Prop
  | [] => False
  | round :: rounds => (∀ r ∈ round, ¬ r.Fails) ∧
      ((∃ r ∈ round, r.err = RD_KAFKA_RESP_ERR__ASSIGN_PARTITIONS) ∨ Arrives rounds)

/-- `_userSubscription` is the subscription librdkafka accepted last. -/
def SubscriptionInStep (c : Client Cb) : Prop := c.consumer.userSubscription = c.rk.subscription

/-- `subscribe` returns at once. -/
def SkipsSubscribe (c : Client Cb) (topics : Topics) : Prop :=
  c.consumer.isCooperativeEnabled = true ∧ topics = c.consumer.userSubscription

/-- A call that returns without asking for a subscription does so with `_userSubscription` in
sync, and with the callback installed already; and a `subscribe` that goes through names C
strings. -/
def ReturnsInStep (c : Client Cb) : AssignmentCall Cb → Prop
  | .subscribe topics rebalanceCallback answer rounds =>
    c.consumer.userAssignment = ∅ →
      (SkipsSubscribe c topics →
        SubscriptionInStep c ∧ rebalanceCallback = c.consumer.rebalanceCb) ∧
      (¬ SkipsSubscribe c topics → answer.toBool = false → Arrives rounds →
        ∀ topic ∈ topics, NulFree topic)
  | .unsubscribe answer _ =>
    c.consumer.userSubscription = ∅ → (c.consumer.userAssignment ≠ ∅ → answer.toBool = false) →
      SubscriptionInStep c
  | _ => True

/-- librdkafka refuses no subscription asked of it, which names C strings, and no callback is
given with topics subscribed to already. -/
def NoneRefused (c : Client Cb) : AssignmentCall Cb → Prop
  | .subscribe topics rebalanceCallback answer _ =>
    answer.toBool = false ∧ (∀ topic ∈ topics, NulFree topic) ∧
      (SkipsSubscribe c topics → rebalanceCallback = c.consumer.rebalanceCb)
  | .unsubscribe answer _ => answer.toBool = false
  | _ => True

/-- Topics are subscribed to, or partitions assigned by hand, but not both. -/
def Exclusive (c : Client Cb) : Prop :=
  c.consumer.userSubscription = ∅ ∨ c.consumer.userAssignment = ∅

/-! ## §2. Waiting for the ASSIGN. -/

namespace Client

/-- A rebalance clears `_pendingEvent` if it is the one waited for. -/
theorem onRebalance_pendingEvent (c : Client Cb) (r : Rebalance) :
    (c.onRebalance r).1.consumer.pendingEvent =
      if r.Known then (noteRebalance c.consumer r).pendingEvent else c.consumer.pendingEvent := by
  rw [onRebalance_consumer]
  split <;> rfl

theorem onRebalance_awaited {c : Client Cb} {r : Rebalance}
    (hp : c.consumer.pendingEvent = some .PartitionsAssignment ∨ c.consumer.pendingEvent = none) :
    (c.onRebalance r).1.consumer.pendingEvent =
      if r.err = RD_KAFKA_RESP_ERR__ASSIGN_PARTITIONS then none else c.consumer.pendingEvent := by
  rw [onRebalance_pendingEvent]
  unfold noteRebalance Rebalance.Known
  rcases hp with hp | hp <;> rw [hp] <;>
    by_cases hassign : r.err = RD_KAFKA_RESP_ERR__ASSIGN_PARTITIONS <;> simp [hassign]

/-- Serving events none of which fails: `_pendingEvent` is cleared if an ASSIGN is among them. -/
theorem serve_awaited {events : List Rebalance} (h : ∀ r ∈ events, ¬ r.Fails) {c : Client Cb}
    (hp : c.consumer.pendingEvent = some .PartitionsAssignment ∨ c.consumer.pendingEvent = none) :
    (c.serve events).1.consumer.pendingEvent =
      if ∃ r ∈ events, r.err = RD_KAFKA_RESP_ERR__ASSIGN_PARTITIONS then none
      else c.consumer.pendingEvent := by
  induction events generalizing c with
  | nil => simp [serve]
  | cons r rs ih =>
    have hfails := c.onRebalance_result r
    have hpending := onRebalance_awaited (r := r) hp
    rw [serve]
    rcases hr : c.onRebalance r with ⟨c₁, invocations, e | ⟨⟩⟩ <;>
      simp only [hr] at hfails hpending ⊢
    · exact absurd (hfails.mp ⟨e, rfl⟩) (h r List.mem_cons_self)
    · -- once cleared, `_pendingEvent` stays clear
      have hp₁ : c₁.consumer.pendingEvent = some .PartitionsAssignment ∨
          c₁.consumer.pendingEvent = none := by
        rw [hpending]
        split
        · exact .inr rfl
        · exact hp
      rw [ih (fun r hr => h r (List.mem_cons_of_mem _ hr)) hp₁, hpending]
      by_cases hassign : r.err = RD_KAFKA_RESP_ERR__ASSIGN_PARTITIONS <;> simp [hassign]

/-- **A wait for the assignment ends well exactly when it arrives.** -/
theorem awaitPending_ok_iff {rounds : List (List Rebalance)} {c : Client Cb}
    (hp : c.consumer.pendingEvent = some .PartitionsAssignment) :
    (c.awaitPending rounds).2.2 = .ok true ↔ Arrives rounds := by
  induction rounds generalizing c with
  | nil => simp [awaitPending, Arrives]
  | cons round rounds ih =>
    obtain ⟨-, hiff⟩ := c.serve_served round
    have hawaited (h : ∀ r ∈ round, ¬ r.Fails) : (c.serve round).1.consumer.pendingEvent = _ :=
      serve_awaited h (.inl hp)
    rw [awaitPending, Arrives]
    rcases hs : c.serve round with ⟨c₁, invocations, e | ⟨⟩⟩ <;> simp only [hs] at hiff hawaited ⊢
    · obtain ⟨r, hr, hf⟩ := hiff.mp ⟨e, rfl⟩
      exact iff_of_false (by simp) fun h => h.1 r hr hf
    · -- the turn ends the wait if the ASSIGN is in it, or else the next turns decide
      have hnone : ∀ r ∈ round, ¬ r.Fails := fun r hr hf => by
        simpa using hiff.mpr ⟨r, hr, hf⟩
      rw [and_iff_right hnone]
      by_cases hassign : ∃ r ∈ round, r.err = RD_KAFKA_RESP_ERR__ASSIGN_PARTITIONS
      · have hpending := hawaited hnone
        rw [if_pos hassign] at hpending
        simp [hpending, hassign]
      · have hpending := hawaited hnone
        rw [if_neg hassign, hp] at hpending
        simp only [hpending, reduceCtorEq, if_false, hassign, false_or]
        exact ih hpending

theorem waitFor_ok_iff (c : Client Cb) (rounds : List (List Rebalance)) (timedOut : String) :
    (c.waitFor .PartitionsAssignment rounds timedOut).2.2 = .ok () ↔ Arrives rounds := by
  rw [waitFor, ← awaitPending_ok_iff (c := c.modify ({ · with
    pendingEvent := some .PartitionsAssignment })) rfl]
  rcases (c.modify ({ · with pendingEvent := some .PartitionsAssignment })).awaitPending rounds with
    ⟨c', invocations, e | _ | _⟩ <;> simp

/-! ## §3. One call. -/

theorem changeAssignment_subscription (c : Client Cb) (event : PartitionsRebalanceEvent)
    (tps : TopicPartitions) (answer : Error) :
    (c.changeAssignment event tps answer).1.rk.subscription = c.rk.subscription := by
  cases event <;>
    simp only [changeAssignment, RdKafka.rd_kafka_assign, RdKafka.rd_kafka_incremental_assign,
      RdKafka.rd_kafka_incremental_unassign, RdKafka.unlessError] <;>
    split <;> rfl

theorem subscribe_of_assigned {c : Client Cb} (hua : c.consumer.userAssignment ≠ ∅)
    (topics : Topics) (cb : Option Cb) (answer : Error) (rounds : List (List Rebalance)) :
    ∃ e, c.subscribe topics cb answer rounds = (c, [], .error (.misuse e)) := by
  rw [subscribe, if_pos hua]
  exact ⟨_, rfl⟩

theorem subscribe_of_skips {c : Client Cb} (hua : c.consumer.userAssignment = ∅)
    {topics : Topics} (hskip : SkipsSubscribe c topics) (cb : Option Cb) (answer : Error)
    (rounds : List (List Rebalance)) :
    c.subscribe topics cb answer rounds = (c, [], .ok ()) := by
  have hua' : ¬ c.consumer.userAssignment ≠ ∅ := not_not.mpr hua
  rw [subscribe, if_neg hua']
  exact if_pos hskip

/-- Otherwise librdkafka is asked, and if it accepts the assignment is waited for. -/
theorem subscribe_of_asks {c : Client Cb} (hua : c.consumer.userAssignment = ∅)
    {topics : Topics} (hskip : ¬ SkipsSubscribe c topics) (cb : Option Cb) (answer : Error)
    (rounds : List (List Rebalance)) :
    c.subscribe topics cb answer rounds =
      if answer.toBool = true then
        (c.subscribing topics cb answer, [], .error (.rdKafka (.ofError answer)))
      else (c.subscribing topics cb answer).waitFor .PartitionsAssignment rounds
        "subscribe() timed out!" := by
  have hua' : ¬ c.consumer.userAssignment ≠ ∅ := not_not.mpr hua
  rw [subscribe, if_neg hua']
  refine (if_neg hskip).trans ?_
  cases herr : answer.toBool with
  | true =>
    rw [throwIfWithError_of_true herr]
    rfl
  | false =>
    rw [throwIfWithError_of_false herr]
    rfl

/-- What librdkafka has after it accepted the topics. -/
theorem subscribing_rk (c : Client Cb) (topics : Topics) (cb : Option Cb) {answer : Error}
    (hok : answer.toBool = false) :
    (c.subscribing topics cb answer).rk.subscription
      = getTopics (some (createRkTopicPartitionListOfTopics topics)) := by
  simp [subscribing, RdKafka.rd_kafka_subscribe, RdKafka.unlessError, hok]

theorem assign_of_subscribed {c : Client Cb} (hus : c.consumer.userSubscription ≠ ∅)
    (tps : TopicPartitions) (answer : Error) :
    ∃ e, c.assign tps answer = (c, [], .error (.misuse e)) := by
  rw [assign, if_pos hus]
  exact ⟨_, rfl⟩

theorem assign_subscription (c : Client Cb) (tps : TopicPartitions) (answer : Error) :
    (c.assign tps answer).1.consumer.userSubscription = c.consumer.userSubscription ∧
      (c.assign tps answer).1.rk.subscription = c.rk.subscription := by
  rcases c.assign_cases tps answer with ⟨heq, -⟩ | ⟨c', hc', ⟨-, heq⟩ | ⟨-, heq⟩⟩ <;> rw [heq]
  · exact ⟨rfl, rfl⟩
  all_goals
    rw [hc', changeAssignment_consumer, changeAssignment_subscription]
    exact ⟨rfl, rfl⟩

theorem unsubscribing_rk (c : Client Cb) {answer : Error} (hok : answer.toBool = false) :
    (c.unsubscribing answer).rk.subscription = ∅ := by
  simp [unsubscribing, RdKafka.rd_kafka_unsubscribe, RdKafka.unlessError, hok]

end Client

/-- Topics arrive in librdkafka as they are exactly when they are C strings. -/
theorem getTopics_eq_iff (topics : Topics) :
    getTopics (some (createRkTopicPartitionListOfTopics topics)) = topics ↔
      ∀ topic ∈ topics, NulFree topic := by
  refine ⟨fun h topic htopic => ?_, getTopics_createRk⟩
  rw [← h] at htopic
  obtain ⟨e, -, rfl⟩ := mem_getTopics.mp htopic
  exact e.topic.2

theorem subscribe_takesEffect_iff (c : Client Cb) (topics : Topics) (cb : Option Cb)
    (answer : Error) (rounds : List (List Rebalance)) :
    TakesEffect c (.subscribe topics cb answer rounds) ↔
      ReturnsInStep c (.subscribe topics cb answer rounds) := by
  have hperform : ∀ res, c.subscribe topics cb answer rounds = res →
      (TakesEffect c (.subscribe topics cb answer rounds) ↔
        (res.2.2 = .ok () → res.1.rk.subscription = topics ∧ res.1.consumer.rebalanceCb = cb)) := by
    rintro res rfl
    exact Iff.rfl
  by_cases hua : c.consumer.userAssignment = ∅
  · by_cases hskip : SkipsSubscribe c topics
    · -- librdkafka is not asked, so what it has must be right already
      rw [hperform _ (Client.subscribe_of_skips hua hskip cb answer rounds)]
      simp only [ReturnsInStep, hua, hskip, forall_const, not_true_eq_false, IsEmpty.forall_iff,
        and_true, SubscriptionInStep]
      rw [hskip.2]
      exact and_congr eq_comm eq_comm
    · rw [hperform _ (Client.subscribe_of_asks hua hskip cb answer rounds)]
      simp only [ReturnsInStep, hua, hskip, IsEmpty.forall_iff, not_false_eq_true, forall_const,
        true_and]
      cases herr : answer.toBool with
      | true => simp
      | false =>
        -- what was accepted stays accepted while the assignment is waited for
        rw [if_neg Bool.false_ne_true]
        obtain ⟨served, rest, -, hs, -⟩ := (c.subscribing topics cb answer).waitFor_served
          .PartitionsAssignment rounds "subscribe() timed out!"
        rw [Client.waitFor_ok_iff, hs.subscription, Client.subscribing_rk c topics cb herr,
          getTopics_eq_iff, hs.user.rebalanceCb]
        simp [Client.subscribing]
  · obtain ⟨e, he⟩ := Client.subscribe_of_assigned hua topics cb answer rounds
    rw [hperform _ he]
    simp [ReturnsInStep, hua]

theorem unsubscribe_takesEffect_iff {c : Client Cb} (hx : Exclusive c) (answer : Error)
    (rounds : List (List Rebalance)) :
    TakesEffect c (.unsubscribe answer rounds) ↔ ReturnsInStep c (.unsubscribe answer rounds) := by
  have hperform : ∀ res, c.unsubscribe answer rounds = res →
      (TakesEffect c (.unsubscribe answer rounds) ↔
        (res.2.2 = .ok () → res.1.rk.subscription = ∅)) := by
    rintro res rfl
    exact Iff.rfl
  unfold ReturnsInStep SubscriptionInStep
  dsimp only
  rcases c.unsubscribe_cases answer rounds with
    ⟨hus, hua, heq⟩ | ⟨hua, c', hc', ⟨herr, heq⟩ | ⟨hok, heq⟩⟩ | ⟨hus, hua, hrest⟩
  · -- it returns at once
    rw [hperform _ heq, hus]
    simp [hua, @eq_comm _ ∅]
  · rw [hperform _ heq]
    simp [hua, herr]
  · -- a manual assignment goes, and the subscription stays what it was
    have hus : c.consumer.userSubscription = ∅ := hx.resolve_right hua
    have hsub : (c'.modify ({ · with userAssignment := ∅ })).rk.subscription
        = c.rk.subscription := by
      rw [hc']
      exact c.changeAssignment_subscription _ _ _
    rw [hperform _ heq, hsub, hus]
    simp [hok, @eq_comm _ ∅]
  · -- librdkafka is asked: if it refuses, nothing is returned
    refine iff_of_true ?_ fun h => absurd h hus
    rcases hrest with ⟨-, heq⟩ | ⟨hok, served, rest, -, hs⟩
    · rw [hperform _ heq]
      simp
    · rw [hperform _ rfl]
      intro
      rw [hs.subscription]
      exact c.unsubscribing_rk hok

/-- **One call** takes effect when it returns if and only if it returns in step. -/
theorem takesEffect_iff {c : Client Cb} (hx : Exclusive c) (call : AssignmentCall Cb) :
    TakesEffect c call ↔ ReturnsInStep c call := by
  cases call with
  | subscribe topics cb answer rounds => exact subscribe_takesEffect_iff c topics cb answer rounds
  | unsubscribe answer rounds => exact unsubscribe_takesEffect_iff hx answer rounds
  | _ => exact iff_of_true (fun _ => trivial) trivial

/-! ## §4. What the calls keep. -/

/-- A call leaves the two user members exclusive, and unless it is refused, `_userSubscription`
in step with librdkafka. -/
theorem perform_keeps {c : Client Cb} (hx : Exclusive c) (call : AssignmentCall Cb) :
    Exclusive (c.perform call).1 ∧
      (NoneRefused c call → SubscriptionInStep c → SubscriptionInStep (c.perform call).1) := by
  cases call with
  | subscribe topics cb answer rounds =>
    show Exclusive (c.subscribe topics cb answer rounds).1 ∧ (_ → _ →
      SubscriptionInStep (c.subscribe topics cb answer rounds).1)
    by_cases hua : c.consumer.userAssignment = ∅
    · rcases c.subscribe_cases topics cb answer rounds with
        ⟨heq, -⟩ | ⟨herr, heq, -⟩ | ⟨hok, served, rest, -, hs, -⟩
      · rw [heq]
        exact ⟨hx, fun _ h => h⟩
      · rw [heq]
        exact ⟨.inr hua, fun hnone => absurd herr (by simp [hnone.1])⟩
      · refine ⟨.inr (hs.user.userAssignment.trans hua), fun hnone _ => ?_⟩
        have hrk := Client.subscribing_rk c topics cb hok
        rw [(getTopics_eq_iff topics).mpr hnone.2.1] at hrk
        exact hs.user.userSubscription.trans (hrk.symm.trans hs.subscription.symm)
    · obtain ⟨e, he⟩ := Client.subscribe_of_assigned hua topics cb answer rounds
      rw [he]
      exact ⟨hx, fun _ h => h⟩
  | unsubscribe answer rounds =>
    show Exclusive (c.unsubscribe answer rounds).1 ∧ (_ → _ →
      SubscriptionInStep (c.unsubscribe answer rounds).1)
    rcases c.unsubscribe_cases answer rounds with
      ⟨-, -, heq⟩ | ⟨hua, c', hc', hrest⟩ | ⟨-, -, hrest⟩
    · rw [heq]
      exact ⟨hx, fun _ h => h⟩
    · have hus : c'.consumer.userSubscription = c.consumer.userSubscription := by
        rw [hc', Client.changeAssignment_consumer]
      have hsub : c'.rk.subscription = c.rk.subscription := by
        rw [hc', Client.changeAssignment_subscription]
      have hnone : c'.consumer.userSubscription = ∅ := hus.trans (hx.resolve_right hua)
      -- giving up a manual assignment changes neither subscription
      have hkeep (h : SubscriptionInStep c) : SubscriptionInStep c' := hus.trans (h.trans hsub.symm)
      rcases hrest with ⟨-, heq⟩ | ⟨-, heq⟩ <;> rw [heq] <;> exact ⟨.inl hnone, fun _ => hkeep⟩
    · rcases hrest with ⟨herr, heq⟩ | ⟨hok, served, rest, -, hs⟩
      · rw [heq]
        exact ⟨.inl rfl, fun hnone => absurd hnone (by simp [NoneRefused, herr])⟩
      · have hus : (c.unsubscribe answer rounds).1.consumer.userSubscription = ∅ :=
          hs.user.userSubscription
        refine ⟨.inl hus, fun _ _ => ?_⟩
        exact hus.trans ((c.unsubscribing_rk hok).symm.trans hs.subscription.symm)
  | assign tps answer =>
    show Exclusive (c.assign tps answer).1 ∧ (_ → _ →
      SubscriptionInStep (c.assign tps answer).1)
    obtain ⟨hus, hsub⟩ := c.assign_subscription tps answer
    refine ⟨?_, fun _ h => hus.trans (h.trans hsub.symm)⟩
    by_cases hnone : c.consumer.userSubscription = ∅
    · exact .inl (hus.trans hnone)
    · obtain ⟨e, he⟩ := Client.assign_of_subscribed hnone tps answer
      rw [he]
      exact hx
  | rebalance r =>
    -- rebalances are about partitions only
    have huser := c.onRebalance_user r
    have hsub : (c.onRebalance r).1.rk.subscription = c.rk.subscription := by
      rw [Client.onRebalance_rk]
      split <;> rfl
    have heq : (c.perform (.rebalance r)).1 = (c.onRebalance r).1 := by
      unfold Client.perform
      dsimp only
      rcases c.onRebalance r with ⟨c', invocations, e | ⟨⟩⟩ <;> rfl
    rw [heq]
    refine ⟨?_, fun _ h => huser.userSubscription.trans (h.trans hsub.symm)⟩
    rw [Exclusive, huser.userSubscription, huser.userAssignment]
    exact hx

/-! ## §5. Every run. -/

theorem exclusive_start : Exclusive ({} : Client Cb) := .inl rfl

/-- A run without a refused call stays in step. -/
theorem NoneRefused.returnsInStep {c : Client Cb} {call : AssignmentCall Cb}
    (h : SubscriptionInStep c) (hnone : NoneRefused c call) : ReturnsInStep c call := by
  cases call with
  | subscribe topics cb answer rounds =>
    exact fun _ => ⟨fun hskip => ⟨h, hnone.2.2 hskip⟩, fun _ _ _ => hnone.2.1⟩
  | unsubscribe answer rounds => exact fun _ _ => h
  | _ => trivial

/-- **A normal return means that the call took effect, in a run, if and only if** the calls of
it return in step; and so it does when librdkafka refuses none of them. -/
theorem run_takesEffect_iff (calls : List (AssignmentCall Cb)) :
    (Along Client.stepClient TakesEffect ({} : Client Cb) calls ↔
      Along Client.stepClient ReturnsInStep ({} : Client Cb) calls) ∧
    (Along Client.stepClient NoneRefused ({} : Client Cb) calls →
      Along Client.stepClient TakesEffect ({} : Client Cb) calls) := by
  have hiff : Along Client.stepClient TakesEffect ({} : Client Cb) calls ↔
      Along Client.stepClient ReturnsInStep ({} : Client Cb) calls := by
    refine along_congr (fun c call _ (hx : Exclusive c) => takesEffect_iff hx call) ?_
      exclusive_start
    intro c call _ c' hx _ hstep
    obtain rfl : (c.perform call).1 = c' := Option.some.inj hstep
    exact (perform_keeps hx call).1
  refine ⟨hiff, fun hnone => hiff.mpr ?_⟩
  refine Along.imp (fun c call _ (h : Exclusive c ∧ SubscriptionInStep c) hcall =>
    NoneRefused.returnsInStep h.2 hcall) ?_ ⟨exclusive_start, rfl⟩ hnone
  rintro c call - c' ⟨hx, hsync⟩ hcall hstep
  obtain rfl : (c.perform call).1 = c' := Option.some.inj hstep
  obtain ⟨hx', hsync'⟩ := perform_keeps hx call
  exact ⟨hx', hsync' hcall hsync⟩

/-- Subscribed to `t` in a cooperative group; subscribing to `u` is refused; and again. -/
def subscribeRefused : List (AssignmentCall Unit) :=
  [.subscribe {"t"} none {}
      [[⟨RD_KAFKA_RESP_ERR__ASSIGN_PARTITIONS, none, some "COOPERATIVE", {}⟩]],
    .subscribe {"u"} none (.ofRespErr RD_KAFKA_RESP_ERR__FAIL) [],
    .subscribe {"u"} none {} []]

/-- The second time `subscribe` returns normally, and librdkafka still has `t`. -/
theorem refused_subscribe_skipped :
    ¬ ∀ calls : List (AssignmentCall Unit), Along Client.stepClient TakesEffect {} calls := by
  intro h
  have heffect := ((((h subscribeRefused).2 _ rfl).2 _ rfl).1 rfl).1
  exact absurd heffect (by decide +kernel)

end ModernCppKafka.Consumer
