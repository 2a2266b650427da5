/-
  ModernCppKafka.Consumer.ManualAssignment — does `assign` mean the same in both protocols?

  An eager consumer hands `assign(tps)` to `rd_kafka_assign`, which replaces the assignment.
  Once cooperative, a consumer hands it to `rd_kafka_incremental_assign`, which adds to it: what
  was assigned before stays, and an empty `tps` does nothing
  (`cooperative_assign_accumulates`).

  Main results:
    * `assign_exact_iff`, `unsubscribe_exact_iff` — when one call leaves exactly what it asks for;
    * `manual_exact_iff`                          — when every call of a run does.
-/
import ModernCppKafka.Consumer.Atomicity

namespace ModernCppKafka.Consumer

open ModernCppKafka.Lib.Run

variable {Cb : Type}

/-! ## §1. Runs of manual assignment. -/

/-- A manual operation, with the librdkafka call it makes accepted. -/
def AssignmentCall.Manual : AssignmentCall Cb → Prop
  | .assign _ answer => answer.toBool = false
  | .unsubscribe answer _ => answer.toBool = false
  | _ => False

/-- `tps` is assigned, and nothing else, by the member and in librdkafka. -/
structure Assigned (c : Client Cb) (tps : TopicPartitions) : Prop where
  member : c.consumer.assignment = tps
  rk : c.rk.assignment = tps

/-- After the call exactly what it asks for is assigned. -/
def Exact (c : Client Cb) (call : AssignmentCall Cb) : Prop :=
  match call with
  | .assign topicPartitions _ => Assigned (c.perform call).1 topicPartitions
  | .unsubscribe _ _ => Assigned (c.perform call).1 ∅
  | _ => True

/-- Partitions as librdkafka is handed them, with C strings for topics. -/
def handed (tps : TopicPartitions) : TopicPartitions :=
  getTopicPartitions (some (createRkTopicPartitionListOfPartitions tps))

/-- Nothing but `tps` is assigned. -/
structure Within (c : Client Cb) (tps : TopicPartitions) : Prop where
  member : c.consumer.assignment ⊆ tps
  rk : c.rk.assignment ⊆ handed tps

/-- An `assign` names C strings, and with the cooperative flag set it names all that is assigned;
an `unsubscribe` that is incremental, or has nothing to give up, does so as well. -/
def NamesAll (c : Client Cb) : AssignmentCall Cb → Prop
  | .assign topicPartitions _ =>
    (∀ tp ∈ topicPartitions, NulFree tp.first) ∧
      (c.consumer.isCooperativeEnabled = true → Within c topicPartitions)
  | .unsubscribe _ _ =>
    c.consumer.userAssignment = ∅ ∨ c.consumer.isCooperativeEnabled = true →
      Within c c.consumer.userAssignment
  | _ => True

/-- An `assign` names C strings, and with the cooperative flag set it names again all that was
named by the last one. -/
def NamesAgain (c : Client Cb) : AssignmentCall Cb → Prop
  | .assign topicPartitions _ =>
    (∀ tp ∈ topicPartitions, NulFree tp.first) ∧
      (c.consumer.isCooperativeEnabled = true → c.consumer.userAssignment ⊆ topicPartitions)
  | _ => True

instance namesAgainDecidable (c : Client Cb) : ∀ call, Decidable (NamesAgain c call)
  | .assign topicPartitions _ => inferInstanceAs (Decidable
      ((∀ tp ∈ topicPartitions, NulFree tp.first) ∧
        (c.consumer.isCooperativeEnabled = true → c.consumer.userAssignment ⊆ topicPartitions)))
  | .subscribe .. | .unsubscribe .. | .rebalance _ => .isTrue trivial

/-- A consumer without a subscription.  What librdkafka has assigned has C strings for topics. -/
structure Unsubscribed (c : Client Cb) : Prop where
  userSubscription : c.consumer.userSubscription = ∅
  nulFree : ∀ tp ∈ c.rk.assignment, NulFree tp.first

/-! ## §2. Changing the assignment. -/

theorem handed_nulFree {tps : TopicPartitions} {tp : TopicPartition} (h : tp ∈ handed tps) :
    NulFree tp.first := nulFree_getTopicPartitions h

theorem handed_eq {tps : TopicPartitions} (h : ∀ tp ∈ tps, NulFree tp.first) :
    handed tps = tps := getTopicPartitions_createRk h

namespace Client

/-- An accepted change does to librdkafka's assignment what it does to the member, with the
partitions handed over. -/
theorem changeAssignment_rk_handed (c : Client Cb) (event : PartitionsRebalanceEvent)
    (tps : TopicPartitions) {answer : Error} (hok : answer.toBool = false) :
    (c.changeAssignment event tps answer).1.rk.assignment
      = event.apply c.rk.assignment (handed tps) := by
  cases event <;>
    simp [changeAssignment, PartitionsRebalanceEvent.apply, RdKafka.rd_kafka_assign,
      RdKafka.rd_kafka_incremental_assign, RdKafka.rd_kafka_incremental_unassign,
      RdKafka.unlessError, hok, handed, getTopicPartitions]

/-- What an accepted `assign` does, without a subscription. -/
theorem assign_of_accepted {c : Client Cb} (hus : c.consumer.userSubscription = ∅)
    (tps : TopicPartitions) {answer : Error} (hok : answer.toBool = false) :
    (c.assign tps answer).1 = ((c.modify ({ · with userAssignment := tps })).changeAssignment
      c.consumer.assignEvent tps answer).1 := by
  have hmis : ¬ c.consumer.userSubscription ≠ ∅ := not_not.mpr hus
  rcases (c.modify ({ · with userAssignment := tps })).changeAssignment_cases
    c.consumer.assignEvent tps answer with ⟨herr, -⟩ | ⟨-, heq⟩
  · simp [hok] at herr
  · unfold assign
    rw [if_neg hmis]
    unfold KafkaConsumer.assignEvent at heq ⊢
    rw [heq]

end Client

/-- A change of the assignment keeps topics in librdkafka C strings. -/
theorem PartitionsRebalanceEvent.apply_nulFree (event : PartitionsRebalanceEvent)
    {owned : TopicPartitions} (h : ∀ tp ∈ owned, NulFree tp.first) (tps : TopicPartitions) :
    ∀ tp ∈ event.apply owned (handed tps), NulFree tp.first := by
  intro tp htp
  cases event with
  | Assign => exact handed_nulFree htp
  | Revoke => simp [PartitionsRebalanceEvent.apply] at htp
  | IncrementalAssign =>
    rcases Finset.mem_union.mp htp with htp | htp
    · exact h tp htp
    · exact handed_nulFree htp
  | IncrementalUnassign => exact h tp (Finset.mem_sdiff.mp htp).1

/-! ## §3. One call. -/

/-- **One `assign`** leaves exactly what it names if and only if it names C strings and, with the
cooperative flag set, all that is assigned. -/
theorem assign_exact_iff {c : Client Cb} (hc : Unsubscribed c) (tps : TopicPartitions)
    {answer : Error} (hok : answer.toBool = false) :
    Assigned (c.assign tps answer).1 tps ↔ NamesAll c (.assign tps answer) := by
  have hassign := Client.assign_of_accepted hc.userSubscription tps hok
  obtain ⟨c', hc'⟩ : ∃ c', c' = (c.assign tps answer).1 := ⟨_, rfl⟩
  have hmember : c'.consumer.assignment
      = c.consumer.assignEvent.apply c.consumer.assignment tps := by
    rw [hc', hassign, Client.changeAssignment_consumer]
    rfl
  have hrk : c'.rk.assignment = c.consumer.assignEvent.apply c.rk.assignment (handed tps) := by
    rw [hc', hassign]
    exact Client.changeAssignment_rk_handed _ _ tps hok
  rw [← hc']
  constructor
  · intro h
    -- what librdkafka has assigned are C strings
    have hnul : ∀ tp ∈ tps, NulFree tp.first := by
      rw [← h.rk, hrk]
      exact c.consumer.assignEvent.apply_nulFree hc.nulFree tps
    refine ⟨hnul, fun hcoop => ?_⟩
    have hevent : c.consumer.assignEvent = .IncrementalAssign := if_pos hcoop
    refine ⟨Finset.union_eq_right.mp ?_, ?_⟩
    · rw [hevent] at hmember
      exact hmember.symm.trans h.member
    · rw [hevent] at hrk
      rw [handed_eq hnul] at hrk ⊢
      exact Finset.union_eq_right.mp (hrk.symm.trans h.rk)
  · rintro ⟨hnul, hall⟩
    refine ⟨hmember.trans ?_, hrk.trans ?_⟩
    all_goals by_cases hcoop : c.consumer.isCooperativeEnabled = true
    · rw [show c.consumer.assignEvent = .IncrementalAssign from if_pos hcoop]
      exact Finset.union_eq_right.mpr (hall hcoop).member
    · rw [show c.consumer.assignEvent = .Assign from if_neg hcoop]
      rfl
    · rw [show c.consumer.assignEvent = .IncrementalAssign from if_pos hcoop]
      exact (Finset.union_eq_right.mpr (hall hcoop).rk).trans (handed_eq hnul)
    · rw [show c.consumer.assignEvent = .Assign from if_neg hcoop]
      exact handed_eq hnul

/-- **One `unsubscribe`** leaves nothing if and only if what it takes is all that is assigned, or
it takes all there is. -/
theorem unsubscribe_exact_iff {c : Client Cb} (hc : Unsubscribed c) {answer : Error}
    (hok : answer.toBool = false) (rounds : List (List Rebalance)) :
    Assigned (c.unsubscribe answer rounds).1 ∅ ↔ NamesAll c (.unsubscribe answer rounds) := by
  unfold NamesAll
  dsimp only
  rcases c.unsubscribe_cases answer rounds with
    ⟨-, hua, heq⟩ | ⟨hua, c', hc', ⟨herr, -⟩ | ⟨-, heq⟩⟩ | ⟨hus, -, -⟩
  · -- it returns at once, and leaves what is there
    rw [heq, hua]
    have hnone : handed ∅ = ∅ := handed_eq (by simp)
    constructor
    · intro h _
      exact ⟨h.member.subset, h.rk.subset.trans hnone.symm.subset⟩
    · intro h
      have hwithin := h (.inl rfl)
      exact ⟨Finset.subset_empty.mp hwithin.member, Finset.subset_empty.mp (hnone ▸ hwithin.rk)⟩
  · simp [hok] at herr
  · have hmember : c'.consumer.assignment
        = c.consumer.unassignEvent.apply c.consumer.assignment c.consumer.userAssignment := by
      rw [hc', Client.changeAssignment_consumer]
    have hrk : c'.rk.assignment
        = c.consumer.unassignEvent.apply c.rk.assignment (handed c.consumer.userAssignment) := by
      rw [hc']
      exact c.changeAssignment_rk_handed _ _ hok
    rw [heq]
    by_cases hcoop : c.consumer.isCooperativeEnabled = true
    · -- a cooperative one gives up what `_userAssignment` names
      rw [show c.consumer.unassignEvent = .IncrementalUnassign from if_pos hcoop] at hmember hrk
      constructor
      · intro h _
        exact ⟨Finset.sdiff_eq_empty_iff_subset.mp (hmember.symm.trans h.member),
          Finset.sdiff_eq_empty_iff_subset.mp (hrk.symm.trans h.rk)⟩
      · intro h
        have hwithin := h (.inr hcoop)
        exact ⟨hmember.trans (Finset.sdiff_eq_empty_iff_subset.mpr hwithin.member),
          hrk.trans (Finset.sdiff_eq_empty_iff_subset.mpr hwithin.rk)⟩
    · -- an eager consumer gives up everything
      rw [show c.consumer.unassignEvent = .Revoke from if_neg hcoop] at hmember hrk
      exact iff_of_true ⟨hmember, hrk⟩ fun h => absurd h (by simp [hua, hcoop])
  · exact absurd hc.userSubscription hus

theorem exact_iff {c : Client Cb} {call : AssignmentCall Cb} (hcall : call.Manual)
    (hc : Unsubscribed c) : Exact c call ↔ NamesAll c call := by
  cases call with
  | assign tps answer => exact assign_exact_iff hc tps hcall
  | unsubscribe answer rounds => exact unsubscribe_exact_iff hc hcall rounds
  | _ => exact Iff.rfl

/-- Every manual call leaves the consumer without a subscription. -/
theorem Unsubscribed.perform {c : Client Cb} (hc : Unsubscribed c) {call : AssignmentCall Cb}
    (hcall : call.Manual) : Unsubscribed (c.perform call).1 := by
  cases call with
  | assign tps answer =>
    show Unsubscribed (c.assign tps answer).1
    rw [Client.assign_of_accepted hc.userSubscription tps hcall]
    refine ⟨?_, ?_⟩
    · rw [Client.changeAssignment_consumer]
      exact hc.userSubscription
    · rw [Client.changeAssignment_rk_handed _ _ tps hcall]
      exact PartitionsRebalanceEvent.apply_nulFree _ hc.nulFree tps
  | unsubscribe answer rounds =>
    show Unsubscribed (c.unsubscribe answer rounds).1
    rcases c.unsubscribe_cases answer rounds with
      ⟨-, -, heq⟩ | ⟨-, c', hc', ⟨herr, -⟩ | ⟨-, heq⟩⟩ | ⟨hus, -, -⟩
    · rw [heq]
      exact hc
    · exact absurd herr (by simp [show answer.toBool = false from hcall])
    · rw [heq]
      refine ⟨?_, ?_⟩
      · show c'.consumer.userSubscription = ∅
        rw [hc', Client.changeAssignment_consumer]
        exact hc.userSubscription
      · show ∀ tp ∈ c'.rk.assignment, NulFree tp.first
        rw [hc', Client.changeAssignment_rk_handed _ _ _ hcall]
        exact PartitionsRebalanceEvent.apply_nulFree _ hc.nulFree _
    · exact absurd hc.userSubscription hus
  | _ => exact absurd hcall id

/-! ## §4. Every run. -/

/-- Where what the last `assign` named is assigned, it is enough to name that again. -/
theorem namesAll_iff_namesAgain {c : Client Cb} (hc : Unsubscribed c)
    (h : Assigned c c.consumer.userAssignment) (call : AssignmentCall Cb) :
    NamesAll c call ↔ NamesAgain c call := by
  cases call with
  | assign tps answer =>
    refine and_congr_right fun hnul => imp_congr_right fun _ => ?_
    constructor
    · intro hwithin
      exact h.member ▸ hwithin.member
    · intro hsub
      exact ⟨h.member.subset.trans hsub,
        h.rk.subset.trans (hsub.trans (handed_eq hnul).symm.subset)⟩
  | unsubscribe answer rounds =>
    have hnul : ∀ tp ∈ c.consumer.userAssignment, NulFree tp.first := h.rk ▸ hc.nulFree
    exact iff_of_true
      (fun _ => ⟨h.member.subset, h.rk.subset.trans (handed_eq hnul).symm.subset⟩) trivial
  | _ => exact Iff.rfl

/-- An exact call leaves assigned what it names. -/
theorem Exact.assigned {c : Client Cb} (hc : Unsubscribed c) {call : AssignmentCall Cb}
    (hcall : call.Manual) (hexact : Exact c call) :
    Assigned (c.perform call).1 (c.perform call).1.consumer.userAssignment := by
  cases call with
  | assign tps answer =>
    have huser : (c.assign tps answer).1.consumer.userAssignment = tps := by
      rw [Client.assign_of_accepted hc.userSubscription tps hcall,
        Client.changeAssignment_consumer]
      rfl
    show Assigned _ (c.assign tps answer).1.consumer.userAssignment
    rw [huser]
    exact hexact
  | unsubscribe answer rounds =>
    have huser : (c.unsubscribe answer rounds).1.consumer.userAssignment = ∅ := by
      rcases c.unsubscribe_cases answer rounds with
        ⟨-, hua, heq⟩ | ⟨-, c', -, ⟨herr, -⟩ | ⟨-, heq⟩⟩ | ⟨hus, -, -⟩
      · rw [heq, hua]
      · exact absurd herr (by simp [show answer.toBool = false from hcall])
      · rw [heq]
        rfl
      · exact absurd hc.userSubscription hus
    show Assigned _ (c.unsubscribe answer rounds).1.consumer.userAssignment
    rw [huser]
    exact hexact
  | _ => exact absurd hcall id

/-- **Manual assignment is exact in a run if and only if** every `assign` of it names C strings
and, once the consumer is cooperative, all that is assigned, and no `unsubscribe` leaves anything
it does not know of.  From a consumer that has assigned what its last `assign` named, if and only
if every `assign` names that again. -/
theorem manual_exact_iff (c : Client Cb) (hc : Unsubscribed c) (calls : List (AssignmentCall Cb))
    (hcalls : ∀ call ∈ calls, call.Manual) :
    (Along Client.stepClient Exact c calls ↔ Along Client.stepClient NamesAll c calls) ∧
    (Assigned c c.consumer.userAssignment →
      (Along Client.stepClient Exact c calls ↔ Along Client.stepClient NamesAgain c calls)) := by
  constructor
  · refine along_congr (fun c call hcall hc => exact_iff (hcalls call hcall) hc) ?_ hc
    rintro c call hcall c' hc - hstep
    obtain rfl : (c.perform call).1 = c' := Option.some.inj hstep
    exact hc.perform (hcalls call hcall)
  · intro h
    refine along_congr
      (fun c call hcall (hc : Unsubscribed c ∧ Assigned c c.consumer.userAssignment) => ?_) ?_
      ⟨hc, h⟩
    · exact (exact_iff (hcalls call hcall) hc.1).trans (namesAll_iff_namesAgain hc.1 hc.2 call)
    · rintro c call hcall c' hc hexact hstep
      obtain rfl : (c.perform call).1 = c' := Option.some.inj hstep
      exact ⟨hc.1.perform (hcalls call hcall), hexact.assigned hc.1 (hcalls call hcall)⟩

/-- A consumer that was subscribed in a cooperative group before. -/
def onceCooperative : Client Unit := { consumer := { cooperativeEnabled := some true } }

theorem unsubscribed_onceCooperative : Unsubscribed onceCooperative :=
  ⟨rfl, by simp [onceCooperative]⟩

/-- Adding partitions one by one, and giving them all up. -/
def growing : List (AssignmentCall Unit) :=
  [.assign {⟨"t", 0⟩} {}, .assign {⟨"t", 0⟩, ⟨"t", 1⟩} {}, .unsubscribe {} []]

theorem manual_exact_iff_growing : Along Client.stepClient Exact onceCooperative growing := by
  have hcalls : ∀ call ∈ growing, call.Manual := by
    simp only [growing, List.forall_mem_cons, AssignmentCall.Manual]
    exact ⟨rfl, rfl, rfl, by simp⟩
  exact ((manual_exact_iff onceCooperative unsubscribed_onceCooperative growing hcalls).2
    ⟨rfl, rfl⟩).mpr (by decide +kernel)

/-- A cooperative `assign` of `t-1` leaves `t-0` of the one before assigned. -/
theorem cooperative_assign_accumulates :
    ¬ ∀ (c : Client Unit) (calls : List (AssignmentCall Unit)), Unsubscribed c →
      (∀ call ∈ calls, call.Manual) → Along Client.stepClient Exact c calls := by
  intro h
  have hcalls : ∀ call ∈ ([.assign {⟨"t", 0⟩} {}, .assign {⟨"t", 1⟩} {}] :
      List (AssignmentCall Unit)), call.Manual := by
    simp only [List.forall_mem_cons, AssignmentCall.Manual]
    exact ⟨rfl, rfl, by simp⟩
  have hexact := (h onceCooperative _ unsubscribed_onceCooperative hcalls).2 _ rfl
  have : (onceCooperative.stepClient (.assign {⟨"t", 0⟩} {})).map
      (fun c => (c.perform (.assign {⟨"t", 1⟩} {})).1.consumer.assignment)
        = some ({⟨"t", 1⟩} : TopicPartitions) := congrArg some hexact.1.member
  exact absurd this (by decide +kernel)

end ModernCppKafka.Consumer
