/-
  ModernCppKafka.Lib.Frontier — retiring the acknowledged front of an increasing list.

  Two lists over a linear order: `received`, strictly increasing, and `pending`, sorted, the
  acknowledgements not yet used.  `drain` compares the two fronts and
    * retires the front of `received` when the front of `pending` equals it;
    * throws the front of `pending` away when it is smaller;
    * stops when it is larger, or when `pending` is used up.
  It returns `none` when it would look at the front of an empty `received`.

  Main results:
    * `drain_some`   — what a successful `drain` retires, keeps and throws away;
    * `drain_none`   — exactly when `drain` runs into an empty `received`;
    * `drain_filter` — `drain` on acknowledgements of received elements only: it retires the
      longest acknowledged prefix;
    * `drain_advance` — `drain` agrees with `advance`, which keeps a set of acknowledgements and
      throws away at once what is before the front.
-/
import Mathlib.Data.Finset.Dedup
import Mathlib.Data.Finset.Filter
import Mathlib.Data.List.Basic
import Mathlib.Order.Basic
import Mathlib.Tactic

namespace ModernCppKafka.Lib.Frontier

variable {α : Type*} [LinearOrder α]

/-- Retire the acknowledged front of `received`; `last` is the element retired last. -/
def drain : List α → List α → Option α → Option (List α × List α × Option α)
  | [], received, last => some ([], received, last)
  | _ :: _, [], _ => none
  | p :: pending, e :: received, last =>
      if p = e then drain pending received (some e)
      else if p < e then drain pending (e :: received) last
      else some (p :: pending, e :: received, last)

/-! ## §1. What a successful drain does. -/

/-- `received = retired ++ rest`, every retired element was acknowledged, what stays pending was
pending, and nothing pending is at or before the front of the rest. -/
structure Drained (pending received pending' rest : List α) (retired : List α) : Prop where
  split : received = retired ++ rest
  acked : ∀ e ∈ retired, e ∈ pending
  suffix : pending' <:+ pending
  above : ∀ e ∈ rest.head?, ∀ p ∈ pending', e < p
  empty : rest = [] → pending' = []

theorem drain_some {pending received : List α} (hp : pending.Pairwise (· ≤ ·)) {last : Option α}
    {pending' rest : List α} {last' : Option α}
    (h : drain pending received last = some (pending', rest, last')) :
    ∃ retired, Drained pending received pending' rest retired
      ∧ last' = retired.getLast?.or last := by
  induction pending, received, last using drain.induct with
  | case1 received last =>
    simp only [drain, Option.some.injEq, Prod.mk.injEq] at h
    obtain ⟨rfl, rfl, rfl⟩ := h
    exact ⟨[], ⟨rfl, by simp, List.suffix_refl _, by simp, fun _ => rfl⟩, by simp⟩
  | case2 => simp [drain] at h
  | case3 pending e received last ih =>
    -- the front is acknowledged: it is retired
    rw [drain, if_pos rfl] at h
    obtain ⟨retired, d, hl⟩ := ih hp.of_cons h
    refine ⟨e :: retired, ⟨by simp [d.split], ?_, d.suffix.trans (List.suffix_cons e pending),
      d.above, d.empty⟩, ?_⟩
    · intro x hx
      rcases List.mem_cons.mp hx with rfl | hx
      · exact List.mem_cons_self
      · exact List.mem_cons_of_mem _ (d.acked x hx)
    · rw [hl]
      cases retired with
      | nil => simp
      | cons y ys => simp [List.getLast?_cons]
  | case4 p pending e received last hne hlt ih =>
    -- a stale acknowledgement: it is thrown away
    rw [drain, if_neg hne, if_pos hlt] at h
    obtain ⟨retired, d, hl⟩ := ih hp.of_cons h
    exact ⟨retired, ⟨d.split, fun x hx => List.mem_cons_of_mem _ (d.acked x hx),
      d.suffix.trans (List.suffix_cons p pending), d.above, d.empty⟩, hl⟩
  | case5 p pending e received last hne hlt =>
    -- the front is not acknowledged: stop
    rw [drain, if_neg hne, if_neg hlt] at h
    simp only [Option.some.injEq, Prod.mk.injEq] at h
    obtain ⟨rfl, rfl, rfl⟩ := h
    have hep : e < p := lt_of_le_of_ne (not_lt.mp hlt) (Ne.symm hne)
    refine ⟨[], ⟨rfl, by simp, List.suffix_refl _, ?_, by simp⟩, by simp⟩
    intro x hx q hq
    obtain rfl : e = x := by simpa using hx
    rcases List.mem_cons.mp hq with rfl | hq
    · exact hep
    · exact hep.trans_le (List.rel_of_pairwise_cons hp hq)

/-! ## §2. When a drain runs into an empty list. -/

/-- Every received element is acknowledged, and one more acknowledgement at or after the last of
them is left over.  (With nothing received, any acknowledgement is.) -/
def Overruns (pending received : List α) : Prop :=
  match received.getLast? with
  | none => pending ≠ []
  | some b => (∀ e ∈ received, e ∈ pending) ∧ 2 ≤ pending.countP (b ≤ ·)

instance (pending received : List α) : Decidable (Overruns pending received) := by
  unfold Overruns
  cases received.getLast? <;> infer_instance

theorem le_getLast {received : List α} (hr : received.Pairwise (· < ·)) {e b : α}
    (he : e ∈ received) (hb : received.getLast? = some b) : e ≤ b := by
  obtain ⟨init, rfl⟩ := List.getLast?_eq_some_iff.mp hb
  rcases List.mem_append.mp he with he | he
  · exact (List.pairwise_append.mp hr).2.2 e he b (by simp) |>.le
  · exact (List.mem_singleton.mp he).le

/-- An acknowledgement before every received element makes no difference. -/
theorem overruns_cons_of_lt {p e : α} {pending received : List α}
    (hr : (e :: received).Pairwise (· < ·)) (hp : p < e) :
    Overruns (p :: pending) (e :: received) ↔ Overruns pending (e :: received) := by
  have hlow : ∀ x ∈ e :: received, p < x := by
    intro x hx
    rcases List.mem_cons.mp hx with rfl | hx
    · exact hp
    · exact hp.trans (List.rel_of_pairwise_cons hr hx)
  obtain ⟨b, hb⟩ : ∃ b, (e :: received).getLast? = some b := ⟨_, List.getLast?_cons⟩
  have hcount : (p :: pending).countP (b ≤ ·) = pending.countP (b ≤ ·) :=
    List.countP_cons_of_neg (by simpa using hlow b (List.mem_of_getLast? hb))
  simp only [Overruns, hb, hcount]
  refine and_congr_left fun _ => forall₂_congr fun x hx => ?_
  simp [(hlow x hx).ne']

/-- Acknowledging the front reduces the question to the rest. -/
theorem overruns_cons_self {e : α} {pending received : List α}
    (hp : (e :: pending).Pairwise (· ≤ ·)) (hr : (e :: received).Pairwise (· < ·)) :
    Overruns (e :: pending) (e :: received) ↔ Overruns pending received := by
  cases received with
  | nil =>
    have hall : ∀ p ∈ pending, e ≤ p := fun p hmem => List.rel_of_pairwise_cons hp hmem
    have hcount : pending.countP (e ≤ ·) = pending.length :=
      List.countP_eq_length.mpr (by simpa using hall)
    have hcount' : (e :: pending).countP (e ≤ ·) = pending.length + 1 := by
      rw [List.countP_cons_of_pos (by simp), hcount]
    have hne : pending ≠ [] ↔ 1 ≤ pending.length := by
      rw [Nat.one_le_iff_ne_zero, ne_eq, ne_eq, List.length_eq_zero_iff]
    simp [Overruns, hcount', hne]
  | cons f fs =>
    obtain ⟨b, hb⟩ : ∃ b, (f :: fs).getLast? = some b := ⟨_, List.getLast?_cons⟩
    have hlt : ∀ x ∈ f :: fs, e < x := fun x hx => List.rel_of_pairwise_cons hr hx
    have hcount : (e :: pending).countP (b ≤ ·) = pending.countP (b ≤ ·) :=
      List.countP_cons_of_neg (by simpa using hlt b (List.mem_of_getLast? hb))
    have hb' : (e :: f :: fs).getLast? = some b := by rw [List.getLast?_cons_cons]; exact hb
    simp only [Overruns, hb, hb', hcount]
    refine and_congr_left fun _ => ⟨fun h x hx => ?_, fun h x hx => ?_⟩
    · have := h x (List.mem_cons_of_mem _ hx)
      simpa [(hlt x hx).ne'] using this
    · rcases List.mem_cons.mp hx with rfl | hx
      · exact List.mem_cons_self
      · exact List.mem_cons_of_mem _ (h x hx)

/-- **A drain fails exactly when it overruns.** -/
theorem drain_none {pending received : List α} (hp : pending.Pairwise (· ≤ ·))
    (hr : received.Pairwise (· < ·)) {last : Option α} :
    drain pending received last = none ↔ Overruns pending received := by
  induction pending, received, last using drain.induct with
  | case1 received last =>
    cases h : received.getLast? <;> simp [drain, Overruns, h]
  | case2 => simp [drain, Overruns]
  | case3 pending e received last ih =>
    rw [drain, if_pos rfl, overruns_cons_self hp hr]
    exact ih hp.of_cons hr.of_cons
  | case4 p pending e received last hne hlt ih =>
    rw [drain, if_neg hne, if_pos hlt, overruns_cons_of_lt hr hlt]
    exact ih hp.of_cons hr
  | case5 p pending e received last hne hlt =>
    rw [drain, if_neg hne, if_neg hlt]
    have hep : e < p := lt_of_le_of_ne (not_lt.mp hlt) (Ne.symm hne)
    have hnot : e ∉ p :: pending := by
      intro hmem
      rcases List.mem_cons.mp hmem with rfl | hmem
      · exact lt_irrefl _ hep
      · exact absurd (List.rel_of_pairwise_cons hp hmem) (not_le.mpr hep)
    obtain ⟨b, hb⟩ : ∃ b, (e :: received).getLast? = some b := ⟨_, List.getLast?_cons⟩
    simp only [reduceCtorEq, Overruns, hb, false_iff, not_and]
    intro hall
    exact absurd (hall e List.mem_cons_self) hnot

/-! ## §3. Draining acknowledgements of received elements only. -/

/-- **`drain` retires the longest acknowledged prefix**: with the acknowledged ones among the
received elements pending, and nothing else, exactly `takeWhile acked` goes. -/
theorem drain_filter {β : Type*} (f : β → α) (acked : β → Bool) (l : List β)
    (hl : (l.map f).Pairwise (· < ·)) (last : Option α) :
    drain ((l.filter acked).map f) (l.map f) last
      = some (((l.dropWhile acked).filter acked).map f, (l.dropWhile acked).map f,
          ((l.takeWhile acked).getLast?.map f).or last) := by
  induction l generalizing last with
  | nil => simp [drain]
  | cons b l ih =>
    have hl' : (l.map f).Pairwise (· < ·) := (List.map_cons ▸ hl).of_cons
    cases hb : acked b with
    | true =>
      rw [List.filter_cons_of_pos hb, List.dropWhile_cons_of_pos hb, List.takeWhile_cons_of_pos hb]
      simp only [List.map_cons, drain, if_true]
      rw [ih hl', List.getLast?_cons]
      cases (l.takeWhile acked).getLast? <;> simp
    | false =>
      have hb' : ¬ acked b = true := by simp [hb]
      rw [List.filter_cons_of_neg hb', List.dropWhile_cons_of_neg hb',
        List.takeWhile_cons_of_neg hb', List.filter_cons_of_neg hb']
      cases hq : (l.filter acked).map f with
      | nil => simp [drain]
      | cons q qs =>
        have hmem : q ∈ l.map f := by
          have : q ∈ (l.filter acked).map f := by simp [hq]
          exact List.map_subset f (List.filter_subset_self l) this
        have hlt : f b < q := List.rel_of_pairwise_cons (List.map_cons ▸ hl) hmem
        simp [drain, hlt.ne', hlt.not_gt]

/-! ## §4. Draining a set of acknowledgements. -/

/-- Throw away the acknowledgements before the front. -/
def notBelow (acked : Finset α) (received : List α) : Finset α :=
  acked.filter fun p => ∀ e ∈ received.head?, e ≤ p

/-- Retire the front while it is acknowledged, and keep the set clear of what is before it. -/
def advance : Finset α → List α → Option α → Finset α × List α × Option α
  | acked, [], last => (acked, [], last)
  | acked, e :: received, last =>
      if e ∈ acked then advance (notBelow (acked.erase e) received) received (some e)
      else (acked, e :: received, last)

theorem mem_notBelow_cons {acked : Finset α} {received : List α} {e p : α} :
    p ∈ notBelow acked (e :: received) ↔ p ∈ acked ∧ e ≤ p := by
  simp [notBelow]

/-- **The two algorithms agree**: what a successful `drain` retires and keeps is what `advance`
does, although `pending` may name an element twice and holds stale ones longer. -/
theorem drain_advance {pending received : List α} (hp : pending.Pairwise (· ≤ ·))
    (hr : received.Pairwise (· < ·)) {last last' : Option α} {pending' rest : List α}
    (h : drain pending received last = some (pending', rest, last')) :
    advance (notBelow pending.toFinset received) received last
      = (pending'.toFinset, rest, last') := by
  induction pending, received, last using drain.induct with
  | case1 received last =>
    simp only [drain, Option.some.injEq, Prod.mk.injEq] at h
    obtain ⟨rfl, rfl, rfl⟩ := h
    cases received <;> simp [advance, notBelow]
  | case2 => simp [drain] at h
  | case3 pending e received last ih =>
    rw [drain, if_pos rfl] at h
    have hfront : e ∈ notBelow (e :: pending).toFinset (e :: received) := by
      simp [mem_notBelow_cons]
    rw [advance, if_pos hfront, ← ih hp.of_cons hr.of_cons h]
    congr 1
    ext p
    cases received with
    | nil =>
      -- the drain went on without a front, so nothing was pending any more
      obtain rfl : pending = [] := by
        cases pending with
        | nil => rfl
        | cons q qs => simp [drain] at h
      by_cases hpe : p = e <;> simp [notBelow, hpe]
    | cons f fs =>
      have hef : e < f := List.rel_of_pairwise_cons hr List.mem_cons_self
      simp only [mem_notBelow_cons, Finset.mem_erase, List.toFinset_cons, Finset.mem_insert]
      constructor
      · rintro ⟨⟨hne, hmem, -⟩, hfp⟩
        exact ⟨hmem.resolve_left hne, hfp⟩
      · rintro ⟨hmem, hfp⟩
        exact ⟨⟨(hef.trans_le hfp).ne', .inr hmem, (hef.trans_le hfp).le⟩, hfp⟩
  | case4 p pending e received last hne hlt ih =>
    rw [drain, if_neg hne, if_pos hlt] at h
    rw [← ih hp.of_cons hr h]
    congr 1
    ext q
    simp only [mem_notBelow_cons, List.toFinset_cons, Finset.mem_insert]
    refine and_congr_left fun hq => or_iff_right ?_
    rintro rfl
    exact absurd hlt (not_lt.mpr hq)
  | case5 p pending e received last hne hlt =>
    rw [drain, if_neg hne, if_neg hlt] at h
    simp only [Option.some.injEq, Prod.mk.injEq] at h
    obtain ⟨rfl, rfl, rfl⟩ := h
    have hep : e < p := lt_of_le_of_ne (not_lt.mp hlt) (Ne.symm hne)
    have habove : ∀ q ∈ (p :: pending).toFinset, e < q := by
      intro q hq
      rcases List.mem_cons.mp (List.mem_toFinset.mp hq) with rfl | hq
      · exact hep
      · exact hep.trans_le (List.rel_of_pairwise_cons hp hq)
    have hkeep : notBelow (p :: pending).toFinset (e :: received) = (p :: pending).toFinset := by
      ext q
      rw [mem_notBelow_cons]
      exact and_iff_left_of_imp fun hq => (habove q hq).le
    rw [hkeep, advance, if_neg fun hmem => lt_irrefl e (habove e hmem)]

/-- What stays pending after a successful drain: whatever is past the front. -/
theorem drain_pending {pending received : List α} (hp : pending.Pairwise (· ≤ ·))
    (hr : received.Pairwise (· < ·)) {last last' : Option α} {pending' rest : List α}
    (h : drain pending received last = some (pending', rest, last')) :
    pending' = pending.filter fun p => rest.head?.any (· < p) := by
  induction pending, received, last using drain.induct with
  | case1 received last =>
    simp only [drain, Option.some.injEq, Prod.mk.injEq] at h
    simp [← h.1]
  | case2 => simp [drain] at h
  | case3 pending e received last ih =>
    rw [drain, if_pos rfl] at h
    obtain ⟨retired, d, -⟩ := drain_some hp.of_cons h
    have hgone : rest.head?.any (· < e) = false := by
      cases rest with
      | nil => rfl
      | cons f fs =>
        have hef : e < f := List.rel_of_pairwise_cons hr (by simp [d.split])
        simp [hef.le]
    rw [List.filter_cons_of_neg (by simp [hgone])]
    exact ih hp.of_cons hr.of_cons h
  | case4 p pending e received last hne hlt ih =>
    rw [drain, if_neg hne, if_pos hlt] at h
    obtain ⟨retired, d, -⟩ := drain_some hp.of_cons h
    have hgone : rest.head?.any (· < p) = false := by
      cases rest with
      | nil => rfl
      | cons f fs =>
        have hef : e ≤ f := by
          have hmem : f ∈ e :: received := by simp [d.split]
          rcases List.mem_cons.mp hmem with rfl | hmem
          · exact le_refl f
          · exact (List.rel_of_pairwise_cons hr hmem).le
        simp [hlt.le.trans hef]
    rw [List.filter_cons_of_neg (by simp [hgone])]
    exact ih hp.of_cons hr h
  | case5 p pending e received last hne hlt =>
    rw [drain, if_neg hne, if_neg hlt] at h
    simp only [Option.some.injEq, Prod.mk.injEq] at h
    obtain ⟨rfl, rfl, rfl⟩ := h
    have hep : e < p := lt_of_le_of_ne (not_lt.mp hlt) (Ne.symm hne)
    refine (List.filter_eq_self.mpr fun q hq => ?_).symm
    rcases List.mem_cons.mp hq with rfl | hq
    · simpa using hep
    · simpa using hep.trans_le (List.rel_of_pairwise_cons hp hq)

end ModernCppKafka.Lib.Frontier
