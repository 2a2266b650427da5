/-
  ModernCppKafka.Queue.AckOrder — acknowledgements in any order.

  The use the queue is meant for: every `ackOffset` names an accepted offset that is not
  acknowledged yet, in any order and between any `waitOffset`s.  Such a run never fails, and the
  queue then shows exactly what its history says (`Reflects`): `_toCommit` is one past the
  longest acknowledged prefix of what was accepted, `size()` counts the rest, and
  `popOffsetToCommit` / `lastPoppedOffset` speak of the value popped last.

  `Tracked` is the invariant: the deque holds the history from the first unacknowledged
  acceptance on, and the heap holds exactly the acknowledged ones among these.
-/
import Mathlib.Data.List.TakeWhile
import ModernCppKafka.Queue.History

namespace ModernCppKafka.Queue

open ModernCppKafka.Lib.Frontier
open ModernCppKafka.Lib.Run
open UnorderedOffsetCommitQueue

/-! ## §1. The rule the user keeps, and what the queue then shows. -/

/-- Offsets leave room for `+ 1`, and an acknowledgement names an acceptance that has none yet
(so it is still in the deque: only acknowledged offsets leave it). -/
def Legal (s : UnorderedOffsetCommitQueue × History) : Call → Prop
  | .waitOffset o => o < Int64.maxValue
  | .ackOffset o => ⟨o, false⟩ ∈ s.2.accepted
  | _ => True

instance (s : UnorderedOffsetCommitQueue × History) : ∀ c : Call, Decidable (Legal s c)
  | .waitOffset o => inferInstanceAs (Decidable (o < Int64.maxValue))
  | .ackOffset o => inferInstanceAs (Decidable (⟨o, false⟩ ∈ s.2.accepted))
  | .popOffsetToCommit | .lastPoppedOffset => .isTrue trivial

/-- The longest fully acknowledged prefix of what was accepted. -/
def History.ackedPrefix (h : History) : List Occurrence := h.accepted.takeWhile (·.acked)

/-- The queue shows what the history says. -/
structure Reflects (q : UnorderedOffsetCommitQueue) (h : History) : Prop where
  /-- `_toCommit` is `e + 1` for the last `e` of the acknowledged prefix. -/
  toCommit_last : ∀ e ∈ h.ackedPrefix.getLast?, q.toCommit.toInt = e.offset.toInt + 1
  /-- `_toCommit` is `-1` when the prefix is empty. -/
  toCommit_none : h.ackedPrefix = [] → q.toCommit = -1
  size_eq : q.size = h.accepted.length - h.ackedPrefix.length
  /-- `popOffsetToCommit` returns `_toCommit` exactly when it differs from the value popped
  last (`-1` before the first). -/
  pop_eq : q.popOffsetToCommit.2
    = if q.toCommit ≠ h.lastPopped.getD (-1) then some q.toCommit else none
  lastPopped_eq : q.lastPoppedOffset = h.lastPopped

/-! ## §2. The invariant. -/

/-- `gone` and `here` are the acknowledged prefix of the history and the rest. -/
structure Tracked (q : UnorderedOffsetCommitQueue) (h : History)
    (gone here : List Occurrence) : Prop where
  wellFormed : WellFormed q
  split : h.accepted = gone ++ here
  gone_acked : ∀ x ∈ gone, x.acked = true
  head_open : ∀ x ∈ here.head?, x.acked = false
  received_eq : q.offsetsReceived = here.map (·.offset)
  pending_eq : q.pending = (here.filter (·.acked)).map (·.offset)
  toCommit_eq : q.toCommit = commitAfter INVALID_OFFSET (gone.getLast?.map (·.offset))
  committed_eq : q.committed = h.lastPopped.getD INVALID_OFFSET
  popped_ne : ∀ v ∈ h.lastPopped, v ≠ INVALID_OFFSET ∧ gone ≠ []
  bounded : ∀ x ∈ h.accepted, 0 ≤ x.offset ∧ x.offset < Int64.maxValue

theorem takeWhile_of_split {l gone here : List Occurrence} (hs : l = gone ++ here)
    (hg : ∀ x ∈ gone, x.acked = true) (hh : ∀ x ∈ here.head?, x.acked = false) :
    l.takeWhile (·.acked) = gone := by
  subst hs
  rw [List.takeWhile_append_of_pos hg]
  cases here with
  | nil => simp
  | cons x xs =>
    have : ¬ x.acked = true := by simpa using hh x rfl
    rw [List.takeWhile_cons_of_neg this, List.append_nil]

theorem commitAfter_toInt {gone : List Occurrence} {e : Occurrence}
    (he : gone.getLast? = some e) (hmax : e.offset < Int64.maxValue) (base : Offset) :
    (commitAfter base (gone.getLast?.map (·.offset))).toInt = e.offset.toInt + 1 := by
  rw [he]
  exact Offset.toInt_add_one hmax

/-- Once something is retired, `_toCommit` is positive. -/
theorem commitAfter_ne {gone : List Occurrence} (hne : gone ≠ [])
    (hb : ∀ x ∈ gone, 0 ≤ x.offset ∧ x.offset < Int64.maxValue) :
    commitAfter INVALID_OFFSET (gone.getLast?.map (·.offset)) ≠ INVALID_OFFSET := by
  obtain ⟨e, he⟩ : ∃ e, gone.getLast? = some e := by
    cases h : gone.getLast? with
    | none => exact absurd (List.getLast?_eq_none_iff.mp h) hne
    | some e => exact ⟨e, rfl⟩
  obtain ⟨h0, hmax⟩ := hb e (List.mem_of_getLast? he)
  intro hc
  have hint := commitAfter_toInt he hmax INVALID_OFFSET
  rw [hc, show INVALID_OFFSET.toInt = -1 from rfl] at hint
  have : 0 ≤ e.offset.toInt := Int64.le_iff_toInt_le.mp h0
  omega

theorem Tracked.reflects {q : UnorderedOffsetCommitQueue} {h : History}
    {gone here : List Occurrence} (t : Tracked q h gone here) : Reflects q h := by
  have hpre : h.ackedPrefix = gone := takeWhile_of_split t.split t.gone_acked t.head_open
  refine ⟨fun e he => ?_, fun hnil => ?_, ?_, ?_, ?_⟩
  · rw [hpre] at he
    have hmem : e ∈ h.accepted := by
      rw [t.split]
      exact List.mem_append_left _ (List.mem_of_getLast? he)
    rw [t.toCommit_eq]
    exact commitAfter_toInt he (t.bounded e hmem).2 _
  · rw [hpre] at hnil
    rw [t.toCommit_eq, hnil]
    rfl
  · rw [hpre, t.split, UnorderedOffsetCommitQueue.size, t.received_eq]
    simp
  · unfold popOffsetToCommit
    rw [t.committed_eq, show (-1 : Offset) = INVALID_OFFSET from rfl]
    by_cases heq : h.lastPopped.getD INVALID_OFFSET = q.toCommit
    · simp [heq]
    · simp [heq, Ne.symm heq]
  · unfold lastPoppedOffset
    rw [t.committed_eq]
    cases hl : h.lastPopped with
    | none => simp
    | some v => simp [(t.popped_ne v hl).1]

theorem tracked_start (info : String) : Tracked (fresh info) {} [] [] :=
  ⟨wellFormed_fresh info, rfl, by simp, by simp, rfl, Heap.sorted_eq_nil.mpr rfl, rfl, rfl,
    by simp, by simp⟩

/-! ## §3. One call. -/

theorem Tracked.wait {q : UnorderedOffsetCommitQueue} {h : History} {gone here : List Occurrence}
    (t : Tracked q h gone here) {o : Offset}
    (hmax : q.accepts o = true → o < Int64.maxValue) :
    ∃ here', Tracked (q.waitOffset o) (h.record q (.waitOffset o)) gone here' := by
  have hwf := waitOffset_wellFormed t.wellFormed o
  unfold waitOffset at hwf ⊢
  unfold History.record
  cases hacc : q.accepts o with
  | false =>
    simp only [hacc] at hwf ⊢
    exact ⟨here, hwf, t.split, t.gone_acked, t.head_open, t.received_eq, t.pending_eq,
      t.toCommit_eq, t.committed_eq, t.popped_ne, t.bounded⟩
  | true =>
    simp only [hacc, if_true] at hwf ⊢
    refine ⟨here ++ [⟨o, false⟩], hwf, by simp [t.split], t.gone_acked, ?_,
      by simp [t.received_eq], ?_, t.toCommit_eq, t.committed_eq, t.popped_ne, ?_⟩
    · intro x hx
      cases here with
      | nil =>
        obtain rfl : ⟨o, false⟩ = x := by simpa using hx
        rfl
      | cons y ys => exact t.head_open x hx
    · have hp : q.offsetsToCommit.sorted = (here.filter (·.acked)).map (·.offset) := t.pending_eq
      simp [pending, hp]
    · intro x hx
      rcases List.mem_append.mp hx with hx | hx
      · exact t.bounded x hx
      · obtain rfl : x = ⟨o, false⟩ := by simpa using hx
        exact ⟨((accepts_iff q t.wellFormed o).mp hacc).1, hmax hacc⟩

/-- Marking an unacknowledged offset adds it to the acknowledged ones, and nothing else. -/
theorem mark_filter_perm {here : List Occurrence} {o : Offset}
    (hlt : (here.map (·.offset)).Pairwise (· < ·)) (ho : ⟨o, false⟩ ∈ here) :
    (((here.map (Occurrence.mark o)).filter (·.acked)).map (·.offset)).Perm
      (o :: (here.filter (·.acked)).map (·.offset)) := by
  obtain ⟨A, B, rfl⟩ := List.append_of_mem ho
  have hne : ∀ x, x ∈ A ∨ x ∈ B → x.offset ≠ o := by
    simp only [List.map_append, List.map_cons, List.pairwise_append, List.pairwise_cons] at hlt
    obtain ⟨-, ⟨hB, -⟩, hA⟩ := hlt
    rintro x (hx | hx)
    · exact (hA _ (List.mem_map_of_mem hx) o List.mem_cons_self).ne
    · exact (hB _ (List.mem_map_of_mem hx)).ne'
  have hA : A.map (Occurrence.mark o) = A :=
    (List.map_congr_left fun x hx => mark_of_ne (hne x (Or.inl hx))).trans (List.map_id' A)
  have hB : B.map (Occurrence.mark o) = B :=
    (List.map_congr_left fun x hx => mark_of_ne (hne x (Or.inr hx))).trans (List.map_id' B)
  have ho' : (⟨o, false⟩ : Occurrence).mark o = ⟨o, true⟩ := by simp [Occurrence.mark]
  simp only [List.map_append, List.map_cons, hA, hB, ho', List.filter_append]
  simp only [List.filter_cons, if_true, Bool.false_eq_true, if_false, List.map_cons]
  exact List.perm_middle

theorem Tracked.ack {q : UnorderedOffsetCommitQueue} {h : History} {gone here : List Occurrence}
    (t : Tracked q h gone here) {o : Offset} (ho : ⟨o, false⟩ ∈ h.accepted) :
    ∃ q', q.ackOffset o = some q' ∧
      ∃ gone' here', Tracked q' (h.record q (.ackOffset o)) gone' here' := by
  have ho' : ⟨o, false⟩ ∈ here := by
    rw [t.split] at ho
    rcases List.mem_append.mp ho with hg | hh
    · exact absurd (t.gone_acked _ hg) (by simp)
    · exact hh
  set here₁ := here.map (Occurrence.mark o) with hhere₁
  have hoff : here₁.map (·.offset) = q.offsetsReceived := by
    rw [hhere₁, t.received_eq]
    exact map_mark_offset o here
  have hlt : (here₁.map (·.offset)).Pairwise (· < ·) := hoff ▸ t.wellFormed.increasing
  -- the heap now holds the acknowledged ones among the marked deque
  have hpend : q.pending.orderedInsert (· ≤ ·) o = (here₁.filter (·.acked)).map (·.offset) := by
    have hsub : ((here₁.filter (·.acked)).map (·.offset)).Pairwise (· ≤ ·) :=
      (hlt.sublist ((List.filter_sublist).map _)).imp le_of_lt
    refine ((List.perm_orderedInsert _ o q.pending).trans ?_).eq_of_pairwise
      (fun _ _ _ _ => le_antisymm) (q.offsetsToCommit.sorted_pairwise.orderedInsert o _) hsub
    rw [t.pending_eq]
    exact (mark_filter_perm (t.received_eq ▸ t.wellFormed.increasing) ho').symm
  -- so the drain retires the longest acknowledged prefix
  have hdrain := drain_filter (·.offset) (·.acked) here₁ hlt none
  rw [← hpend, hoff, Option.or_none] at hdrain
  have href := ackOffset_eq_drain q t.wellFormed.ordered o
  rw [ackDrain, hdrain] at href
  obtain ⟨q', hq', r⟩ := href
  refine ⟨q', hq', gone.map (Occurrence.mark o) ++ here₁.takeWhile (·.acked),
    here₁.dropWhile (·.acked), ?_⟩
  refine ⟨step_wellFormed q (.ackOffset o) q' t.wellFormed hq', ?_, ?_, ?_, r.received_eq,
    r.pending_eq, ?_, r.committed_eq.trans t.committed_eq, ?_, ?_⟩
  · simp only [History.record, t.split, List.map_append, List.append_assoc,
      List.takeWhile_append_dropWhile, hhere₁]
  · intro x hx
    rcases List.mem_append.mp hx with hx | hx
    · obtain ⟨y, hy, rfl⟩ := List.mem_map.mp hx
      exact mark_acked.mpr (Or.inr (t.gone_acked y hy))
    · exact List.mem_takeWhile_imp hx
  · intro x hx
    have := List.head?_dropWhile_not (·.acked) here₁
    rw [show (here₁.dropWhile (·.acked)).head? = some x from hx] at this
    simpa using this
  · rw [r.toCommit_eq, t.toCommit_eq, List.getLast?_append]
    cases (here₁.takeWhile (·.acked)).getLast? with
    | some x => rfl
    | none => simp [List.getLast?_map, Option.map_map, Function.comp_def, commitAfter]
  · intro v hv
    refine ⟨(t.popped_ne v hv).1, ?_⟩
    have hgone := (t.popped_ne v hv).2
    simp [hgone]
  · intro x hx
    obtain ⟨y, hy, rfl⟩ := List.mem_map.mp hx
    rw [mark_offset]
    exact t.bounded y hy

theorem Tracked.pop {q : UnorderedOffsetCommitQueue} {h : History} {gone here : List Occurrence}
    (t : Tracked q h gone here) :
    Tracked q.popOffsetToCommit.1 (h.record q .popOffsetToCommit) gone here := by
  have hwf := step_wellFormed q .popOffsetToCommit _ t.wellFormed rfl
  unfold popOffsetToCommit at hwf ⊢
  simp only [History.record, popOffsetToCommit]
  by_cases hne : q.committed ≠ q.toCommit
  · rw [if_pos hne] at hwf ⊢
    refine ⟨hwf, t.split, t.gone_acked, t.head_open, t.received_eq, t.pending_eq, t.toCommit_eq,
      by simp, ?_, t.bounded⟩
    intro v hv
    obtain rfl : q.toCommit = v := by simpa using hv
    -- `_toCommit` differs from the value popped last, so something was retired
    have hgone : gone ≠ [] := by
      intro hnil
      cases hl : h.lastPopped with
      | none =>
        refine hne ?_
        rw [t.committed_eq, t.toCommit_eq, hnil, hl]
        rfl
      | some w => exact (t.popped_ne w hl).2 hnil
    refine ⟨?_, hgone⟩
    rw [t.toCommit_eq]
    exact commitAfter_ne hgone fun x hx => t.bounded x (by
      rw [t.split]; exact List.mem_append_left _ hx)
  · rw [if_neg hne] at hwf ⊢
    exact ⟨hwf, t.split, t.gone_acked, t.head_open, t.received_eq, t.pending_eq, t.toCommit_eq,
      t.committed_eq, t.popped_ne, t.bounded⟩

/-- A legal call succeeds and keeps the invariant. -/
theorem trace_tracked (s : UnorderedOffsetCommitQueue × History) (c : Call)
    (ht : ∃ gone here, Tracked s.1 s.2 gone here) (hok : Legal s c) :
    ∃ s', trace s c = some s' ∧ ∃ gone here, Tracked s'.1 s'.2 gone here := by
  obtain ⟨q, h⟩ := s
  obtain ⟨gone, here, t⟩ := ht
  cases c with
  | waitOffset o =>
    obtain ⟨here', t'⟩ := t.wait fun _ => hok
    exact ⟨_, rfl, gone, here', t'⟩
  | ackOffset o =>
    obtain ⟨q', hq', gone', here', t'⟩ := t.ack hok
    exact ⟨(q', _), trace_eq_some.mpr ⟨hq', rfl⟩, gone', here', t'⟩
  | popOffsetToCommit => exact ⟨_, rfl, gone, here, t.pop⟩
  | lastPoppedOffset => exact ⟨_, rfl, gone, here, t⟩

/-! ## §4. Every legal run. -/

theorem run_tracked (info : String) (cs : List Call) (hok : Along trace Legal (start info) cs) :
    ∃ s, run trace (start info) cs = some s ∧ ∃ gone here, Tracked s.1 s.2 gone here :=
  run_total trace_tracked
    ⟨[], [], tracked_start info⟩ hok

/-- The queue's answers depend on its history alone. -/
theorem Reflects.unique {q q' : UnorderedOffsetCommitQueue} {h h' : History}
    (r : Reflects q h) (r' : Reflects q' h') (heq : h.accepted = h'.accepted) :
    q.toCommit = q'.toCommit ∧ q.size = q'.size := by
  have hpre : h'.ackedPrefix = h.ackedPrefix := by rw [History.ackedPrefix, ← heq]; rfl
  refine ⟨?_, by rw [r.size_eq, r'.size_eq, hpre, heq]⟩
  cases hl : h.ackedPrefix.getLast? with
  | none =>
    have hnil : h.ackedPrefix = [] := List.getLast?_eq_none_iff.mp hl
    rw [r.toCommit_none hnil, r'.toCommit_none (hpre ▸ hnil)]
  | some e =>
    have h₁ := r.toCommit_last e hl
    have h₂ := r'.toCommit_last e (hpre ▸ hl)
    exact Int64.toInt_inj.mp (h₁.trans h₂.symm)

/-! ## §5. Acknowledgements in a row. -/

theorem mark_comm (a b : Offset) (x : Occurrence) : (x.mark a).mark b = (x.mark b).mark a := by
  unfold Occurrence.mark
  split <;> split <;> simp_all

/-- The history after acknowledging `acks` in a row. -/
def markAll (acks : List Offset) (l : List Occurrence) : List Occurrence :=
  acks.foldl (fun l o => l.map (Occurrence.mark o)) l

theorem markAll_perm {acks acks' : List Offset} (hp : acks.Perm acks') (l : List Occurrence) :
    markAll acks l = markAll acks' l := by
  refine hp.foldl_eq' (fun a _ b _ l => ?_) l
  simp only [List.map_map]
  exact List.map_congr_left fun x _ => mark_comm a b x

theorem run_acks_accepted {acks : List Offset} {s t : UnorderedOffsetCommitQueue × History}
    (h : run trace s (acks.map Call.ackOffset) = some t) :
    t.2.accepted = markAll acks s.2.accepted := by
  induction acks generalizing s with
  | nil =>
    obtain rfl : s = t := by simpa using h
    rfl
  | cons o acks ih =>
    obtain ⟨⟨q, hist⟩, hstep, hrest⟩ := (run_cons_eq_some trace).mp h
    rw [ih hrest, (trace_eq_some.mp hstep).2]
    rfl

/-- After an acknowledgement of `o`, the others are open as before. -/
theorem mem_map_mark_open {l : List Occurrence} {o b : Offset} :
    (⟨b, false⟩ : Occurrence) ∈ l.map (Occurrence.mark o) ↔ b ≠ o ∧ ⟨b, false⟩ ∈ l := by
  simp only [List.mem_map]
  constructor
  · rintro ⟨⟨c, acked⟩, hx, hxb⟩
    by_cases hc : c = o
    · simp [Occurrence.mark, hc] at hxb
    · rw [mark_of_ne (x := ⟨c, acked⟩) hc] at hxb
      obtain ⟨rfl, rfl⟩ : c = b ∧ acked = false := by simpa using hxb
      exact ⟨hc, hx⟩
  · rintro ⟨hne, hb⟩
    exact ⟨_, hb, mark_of_ne hne⟩

/-- Acknowledgements in a row are legal exactly when they name different open offsets. -/
theorem along_acks {acks : List Offset} {s : UnorderedOffsetCommitQueue × History}
    (ht : ∃ gone here, Tracked s.1 s.2 gone here) :
    Along trace Legal s (acks.map Call.ackOffset) ↔
      acks.Nodup ∧ ∀ o ∈ acks, ⟨o, false⟩ ∈ s.2.accepted := by
  induction acks generalizing s with
  | nil => simp [Along]
  | cons o acks ih =>
    simp only [List.map_cons, Along, List.nodup_cons, List.forall_mem_cons]
    constructor
    · rintro ⟨ho, hrest⟩
      obtain ⟨s', hs', ht'⟩ := trace_tracked s (.ackOffset o) ht ho
      obtain ⟨hnodup, hopen⟩ := (ih ht').mp (hrest s' hs')
      rw [(trace_eq_some.mp hs').2] at hopen
      have hopen' := fun b hb => mem_map_mark_open.mp (hopen b hb)
      exact ⟨⟨fun hmem => (hopen' o hmem).1 rfl, hnodup⟩, ho, fun b hb => (hopen' b hb).2⟩
    · rintro ⟨⟨hnew, hnodup⟩, ho, hopen⟩
      refine ⟨ho, fun s' hs' => ?_⟩
      obtain ⟨s'', hs'', ht'⟩ := trace_tracked s (.ackOffset o) ht ho
      obtain rfl : s' = s'' := by simpa [hs'] using hs''
      refine (ih ht').mpr ⟨hnodup, fun b hb => ?_⟩
      rw [(trace_eq_some.mp hs').2]
      exact mem_map_mark_open.mpr ⟨fun h => hnew (h ▸ hb), hopen b hb⟩

/-- Any order of the same acknowledgements is as legal, and leads to the same answers. -/
theorem run_acks_perm (info : String) {cs : List Call} {acks acks' : List Offset}
    (hp : acks.Perm acks') (hok : Along trace Legal (start info) (cs ++ acks.map .ackOffset)) :
    Along trace Legal (start info) (cs ++ acks'.map .ackOffset) ∧
      ∀ q h q' h', run trace (start info) (cs ++ acks.map .ackOffset) = some (q, h) →
        run trace (start info) (cs ++ acks'.map .ackOffset) = some (q', h') →
        h.accepted = h'.accepted := by
  obtain ⟨hcs, hacks⟩ := Along.append.mp hok
  obtain ⟨s, hs, ht⟩ := run_tracked info cs hcs
  obtain ⟨hnodup, hopen⟩ := (along_acks ht).mp (hacks s hs)
  refine ⟨Along.append.mpr ⟨hcs, fun t hrun => ?_⟩, fun q h q' h' hrun hrun' => ?_⟩
  · obtain rfl : s = t := by simpa [hs] using hrun
    exact (along_acks ht).mpr ⟨hp.nodup_iff.mp hnodup, fun o ho => hopen o (hp.mem_iff.mpr ho)⟩
  · rw [run_append, hs] at hrun hrun'
    exact (run_acks_accepted hrun).trans
      ((markAll_perm hp _).trans (run_acks_accepted hrun').symm)

/-- **The queue reflects its history after every call of a legal run**, and the history alone:
two legal runs with the same history agree, so the order of acknowledgements is immaterial. -/
theorem run_reflects (info : String) (cs : List Call)
    (hok : Along trace Legal (start info) cs) :
    (∀ pre, pre <+: cs → ∃ q h, run trace (start info) pre = some (q, h) ∧ Reflects q h) ∧
    (∀ cs' q h q' h', Along trace Legal (start info) cs' →
      run trace (start info) cs = some (q, h) → run trace (start info) cs' = some (q', h') →
      h.accepted = h'.accepted → q.toCommit = q'.toCommit ∧ q.size = q'.size) ∧
    (∀ (body : List Call) (acks acks' : List Offset),
      cs = body ++ acks.map .ackOffset → acks.Perm acks' →
      Along trace Legal (start info) (body ++ acks'.map .ackOffset) ∧
      ∀ q h q' h', run trace (start info) cs = some (q, h) →
        run trace (start info) (body ++ acks'.map .ackOffset) = some (q', h') →
        q.toCommit = q'.toCommit ∧ q.size = q'.size) := by
  have hreflects : ∀ as, Along trace Legal (start info) as → ∀ q h,
      run trace (start info) as = some (q, h) → Reflects q h := by
    intro as has q h hrun
    obtain ⟨s, hs, gone, here, t⟩ := run_tracked info as has
    obtain rfl : s = (q, h) := by simpa [hrun] using hs.symm
    exact t.reflects
  refine ⟨?_, ?_, ?_⟩
  · rintro pre ⟨post, rfl⟩
    obtain ⟨⟨q, h⟩, hs, gone, here, t⟩ := run_tracked info pre (Along.append.mp hok).1
    exact ⟨q, h, hs, t.reflects⟩
  · intro cs' q h q' h' hok' hrun hrun' heq
    exact (hreflects cs hok q h hrun).unique (hreflects cs' hok' q' h' hrun') heq
  · rintro body acks acks' rfl hp
    obtain ⟨hok', heq⟩ := run_acks_perm info hp hok
    exact ⟨hok', fun q h q' h' hrun hrun' => (hreflects _ hok q h hrun).unique
      (hreflects _ hok' q' h' hrun') (heq q h q' h' hrun hrun')⟩

/-- Acknowledgements out of order, a gap in the offsets and a second use of a drained queue. -/
theorem run_reflects_reused :
    ∃ q h, run trace (start "") [.waitOffset 1, .waitOffset 4, .ackOffset 4, .ackOffset 1,
        .popOffsetToCommit, .waitOffset 9] = some (q, h) ∧ q.toCommit = 5 ∧ Reflects q h := by
  have hrun : run trace (start "") [.waitOffset 1, .waitOffset 4, .ackOffset 4, .ackOffset 1,
      .popOffsetToCommit, .waitOffset 9] = some ({ (fresh "") with
          offsetsReceived := [9], toCommit := 5, committed := 5 },
        { accepted := [⟨1, true⟩, ⟨4, true⟩, ⟨9, false⟩], lastPopped := some 5 }) := by
    decide +kernel
  obtain ⟨hall, -, -⟩ := run_reflects "" [.waitOffset 1, .waitOffset 4, .ackOffset 4,
    .ackOffset 1, .popOffsetToCommit, .waitOffset 9] (by decide +kernel)
  obtain ⟨q, h, hq, r⟩ := hall _ List.prefix_rfl
  obtain ⟨rfl, rfl⟩ := Prod.mk.inj (Option.some.inj (hq.symm.trans hrun))
  exact ⟨_, _, hrun, rfl, r⟩

end ModernCppKafka.Queue
