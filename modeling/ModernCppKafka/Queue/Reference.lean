/-
  ModernCppKafka.Queue.Reference — the queue against the plain set algorithm.

  `Reference` is the algorithm one would write down: a SET of pending acknowledgements, from
  which what is before the front of the received offsets is dropped at once.  The heap keeps
  duplicates, stale acknowledgements and those of offsets never received until the loop meets
  them; still the two show the same offsets and the same `_toCommit` after every call.

  `Simulates` is the relation between the two, kept by every call that reads no empty container
  (`step_simulates`).  An acknowledgement already pending, or before the front, leaves the
  reference as it is (`ackOffset_of_duplicateOrStale`), so later results are those of the run
  without it, which reads no empty container either (`step_covers`).
-/
import ModernCppKafka.Queue.Safety

namespace ModernCppKafka.Queue

open ModernCppKafka.Lib.Frontier
open ModernCppKafka.Lib.Run
open UnorderedOffsetCommitQueue

/-! ## §1. The reference. -/

structure Reference where
  pending : Finset Offset := ∅
  received : List Offset := []
  toCommit : Offset := INVALID_OFFSET
  deriving DecidableEq

namespace Reference

def waitOffset (r : Reference) (o : Offset) : Reference :=
  if 0 ≤ o ∧ r.received.all (· < o) then { r with received := r.received ++ [o] } else r

/-- Add `o` to the set, drop what is before the front, and retire the front while it is in the
set. -/
def ackOffset (r : Reference) (o : Offset) : Reference :=
  let res := advance (notBelow (insert o r.pending) r.received) r.received none
  { pending := res.1, received := res.2.1, toCommit := commitAfter r.toCommit res.2.2 }

def step (r : Reference) : Call → Reference
  | .waitOffset o => r.waitOffset o
  | .ackOffset o => r.ackOffset o
  | .popOffsetToCommit | .lastPoppedOffset => r

/-- The reference after a sequence of calls. -/
def after (cs : List Call) : Reference := cs.foldl step {}

end Reference

/-! ## §2. The simulation. -/

/-- The two show the same; the heap holds the set, and nothing at or before the front. -/
structure Simulates (q : UnorderedOffsetCommitQueue) (r : Reference) : Prop where
  wellFormed : WellFormed q
  received_eq : q.offsetsReceived = r.received
  toCommit_eq : q.toCommit = r.toCommit
  pending_eq : q.pending.toFinset = r.pending
  above : ∀ e ∈ q.offsetsReceived.head?, ∀ p ∈ q.pending, e < p
  drained : q.offsetsReceived = [] → q.pending = []

theorem simulates_fresh (info : String) : Simulates (fresh info) {} := by
  have hnone : (fresh info).pending = [] := Heap.sorted_eq_nil.mpr rfl
  exact ⟨wellFormed_fresh info, rfl, rfl, by simp [hnone], by simp [fresh], fun _ => hnone⟩

theorem Simulates.wait {q : UnorderedOffsetCommitQueue} {r : Reference} (s : Simulates q r)
    (o : Offset) : Simulates (q.waitOffset o) (r.waitOffset o) := by
  have hwf := waitOffset_wellFormed s.wellFormed o
  have hacc : q.accepts o = true ↔ 0 ≤ o ∧ r.received.all (· < o) = true := by
    rw [accepts_iff q s.wellFormed o, s.received_eq]
    simp
  unfold UnorderedOffsetCommitQueue.waitOffset Reference.waitOffset at *
  by_cases h : q.accepts o = true
  · rw [if_pos h] at hwf ⊢
    rw [if_pos (hacc.mp h)]
    refine ⟨hwf, by simp [s.received_eq], s.toCommit_eq, s.pending_eq, ?_, by simp⟩
    intro e he p hp
    cases hrcv : q.offsetsReceived with
    | nil =>
      -- a deque that fills up again finds the heap empty
      have hp' : p ∈ q.pending := hp
      simp [s.drained hrcv] at hp'
    | cons f fs =>
      obtain rfl : f = e := by simpa [hrcv] using he
      exact s.above f (by simp [hrcv]) p hp
  · rw [if_neg h] at hwf ⊢
    rw [if_neg fun hc => h (hacc.mpr hc)]
    exact ⟨hwf, s.received_eq, s.toCommit_eq, s.pending_eq, s.above, s.drained⟩

theorem Simulates.ack {q q' : UnorderedOffsetCommitQueue} {r : Reference} (s : Simulates q r)
    {o : Offset} (h : q.ackOffset o = some q') : Simulates q' (r.ackOffset o) := by
  have hwf := step_wellFormed q (.ackOffset o) q' s.wellFormed h
  have hsorted := q.offsetsToCommit.sorted_pairwise.orderedInsert o
  have href := ackOffset_eq_drain q s.wellFormed.ordered o
  cases hd : q.ackDrain o with
  | none =>
    rw [hd] at href
    simp [h] at href
  | some res =>
    obtain ⟨pending', rest, last⟩ := res
    rw [hd] at href
    obtain ⟨q₁, hq₁, l⟩ := href
    obtain rfl : q' = q₁ := by simpa [h] using hq₁
    obtain ⟨retired, d, -⟩ := drain_some hsorted hd
    have hset : (q.pending.orderedInsert (· ≤ ·) o).toFinset = insert o r.pending := by
      ext p
      rw [List.mem_toFinset, List.mem_orderedInsert, Finset.mem_insert, ← s.pending_eq,
        List.mem_toFinset]
    -- the loop on the sorted heap is the loop on the set
    have hadv := drain_advance hsorted s.wellFormed.increasing hd
    have hset' : q.offsetsToCommit.sorted.orderedInsert (· ≤ ·) o
        = q.pending.orderedInsert (· ≤ ·) o := rfl
    rw [hset', hset, s.received_eq] at hadv
    have hstep : r.ackOffset o = ⟨pending'.toFinset, rest, commitAfter r.toCommit last⟩ := by
      simp only [Reference.ackOffset, hadv]
    rw [hstep]
    refine ⟨hwf, l.received_eq, by rw [l.toCommit_eq, s.toCommit_eq], by rw [l.pending_eq],
      ?_, ?_⟩
    · rw [l.received_eq, l.pending_eq]
      exact d.above
    · rw [l.received_eq, l.pending_eq]
      exact d.empty

/-- **One call keeps the two in step.** -/
theorem step_simulates {q q' : UnorderedOffsetCommitQueue} {r : Reference} {c : Call}
    (s : Simulates q r) (h : step q c = some q') : Simulates q' (r.step c) := by
  cases c with
  | waitOffset o =>
    obtain rfl : q.waitOffset o = q' := by simpa [step] using h
    exact s.wait o
  | ackOffset o => exact s.ack h
  | popOffsetToCommit =>
    have hwf := step_wellFormed q .popOffsetToCommit q' s.wellFormed h
    obtain rfl : q.popOffsetToCommit.1 = q' := by simpa [step] using h
    unfold popOffsetToCommit at hwf ⊢
    split at hwf
    next hne =>
      rw [if_pos hne]
      exact ⟨hwf, s.received_eq, s.toCommit_eq, s.pending_eq, s.above, s.drained⟩
    next heq =>
      rw [if_neg heq]
      exact s
  | lastPoppedOffset =>
    obtain rfl : q = q' := by simpa [step] using h
    exact s

theorem run_simulates {cs : List Call} {q q' : UnorderedOffsetCommitQueue} {r : Reference}
    (s : Simulates q r) (h : run step q cs = some q') :
    Simulates q' (cs.foldl Reference.step r) := by
  induction cs generalizing q r with
  | nil =>
    obtain rfl : q = q' := by simpa using h
    exact s
  | cons c cs ih =>
    obtain ⟨q₁, hstep, hrest⟩ := (run_cons_eq_some step).mp h
    exact ih (step_simulates s hstep) hrest

/-! ## §3. Acknowledgements without effect. -/

/-- `o` is in the heap already, or before the front of the deque. -/
def DuplicateOrStale (q : UnorderedOffsetCommitQueue) (o : Offset) : Prop :=
  o ∈ q.offsetsToCommit.data.toList ∨ ∃ e ∈ q.offsetsReceived.head?, o < e

/-- Fewer acknowledgements overrun less. -/
theorem overruns_of_subperm {l l' received : List Offset} (h : l.Subperm l')
    (ho : Overruns l received) : Overruns l' received := by
  unfold Overruns at ho ⊢
  cases hb : received.getLast? with
  | none =>
    rw [hb] at ho
    rintro rfl
    exact ho (List.subperm_nil.mp h)
  | some b =>
    rw [hb] at ho
    exact ⟨fun e he => h.subset (ho.1 e he), ho.2.trans (h.countP_le _)⟩

/-- What an acknowledgement that does not fail leaves behind. -/
theorem ackOffset_pending {q q' : UnorderedOffsetCommitQueue} (hq : WellFormed q) {o : Offset}
    (h : q.ackOffset o = some q') : q'.pending
      = (q.pending.orderedInsert (· ≤ ·) o).filter
          fun p => q'.offsetsReceived.head?.any (· < p) := by
  have href := ackOffset_eq_drain q hq.ordered o
  cases hd : q.ackDrain o with
  | none =>
    rw [hd] at href
    simp [h] at href
  | some res =>
    obtain ⟨pending', rest, last⟩ := res
    rw [hd] at href
    obtain ⟨q₁, hq₁, l⟩ := href
    obtain rfl : q' = q₁ := by simpa [h] using hq₁
    rw [l.pending_eq, l.received_eq]
    exact drain_pending (q.offsetsToCommit.sorted_pairwise.orderedInsert o) hq.increasing hd

/-- Such an acknowledgement leaves the reference as it is. -/
theorem Simulates.ackOffset_of_duplicateOrStale {q : UnorderedOffsetCommitQueue} {r : Reference}
    (s : Simulates q r) {o : Offset} (ho : DuplicateOrStale q o) : r.ackOffset o = r := by
  have hmem : ∀ p, p ∈ r.pending ↔ p ∈ q.offsetsToCommit.data.toList := fun p => by
    rw [← s.pending_eq, List.mem_toFinset]
    exact q.offsetsToCommit.sorted_perm.mem_iff
  cases hrcv : r.received with
  | nil =>
    -- nothing is waiting, so nothing is pending
    rcases ho with ho | ⟨e, he, -⟩
    · have hp : o ∈ q.pending := q.offsetsToCommit.sorted_perm.mem_iff.mpr ho
      simp [s.drained (s.received_eq.trans hrcv)] at hp
    · simp [s.received_eq, hrcv] at he
  | cons e rest =>
    have habove : ∀ p ∈ r.pending, e < p := fun p hp =>
      s.above e (by simp [s.received_eq, hrcv]) p
        (q.offsetsToCommit.sorted_perm.mem_iff.mpr ((hmem p).mp hp))
    have hkeep : notBelow (insert o r.pending) (e :: rest) = r.pending := by
      ext p
      rw [mem_notBelow_cons, Finset.mem_insert]
      constructor
      · rintro ⟨rfl | hp, hle⟩
        · rcases ho with ho | ⟨f, hf, hlt⟩
          · exact (hmem _).mpr ho
          · obtain rfl : e = f := by simpa [s.received_eq, hrcv] using hf
            exact absurd hlt (not_lt.mpr hle)
        · exact hp
      · exact fun hp => ⟨.inr hp, (habove p hp).le⟩
    rw [Reference.ackOffset, hrcv, hkeep, advance, if_neg fun hp => lt_irrefl e (habove e hp)]
    simp only [commitAfter, ← hrcv]

/-- Both show what `r` does, and `q` has the acknowledgements of `q'`, some of them fewer
times. -/
structure Covers (q q' : UnorderedOffsetCommitQueue) (r : Reference) : Prop where
  simulates : Simulates q r
  simulates' : Simulates q' r
  subperm : q.pending.Subperm q'.pending
  committed_eq : q.committed = q'.committed

theorem Covers.ack {q q' q₁' : UnorderedOffsetCommitQueue} {r : Reference} (c : Covers q q' r)
    {o : Offset} (h : q'.ackOffset o = some q₁') :
    ∃ q₁, q.ackOffset o = some q₁ ∧ Covers q₁ q₁' (r.ackOffset o) := by
  have hheap : q.offsetsToCommit.data.toList.Subperm q'.offsetsToCommit.data.toList :=
    (q.offsetsToCommit.sorted_perm.symm.subperm.trans c.subperm).trans
      q'.offsetsToCommit.sorted_perm.subperm
  -- if fewer acknowledgements overran the deque, so would more
  have hnone : q.ackOffset o ≠ none := by
    intro hnone
    have hover := (ackOffset_eq_none c.simulates.wellFormed o).mp hnone
    rw [AckOverruns, c.simulates.received_eq, ← c.simulates'.received_eq] at hover
    have hover' : AckOverruns q' o := overruns_of_subperm ((List.subperm_cons o).mpr hheap) hover
    rw [← ackOffset_eq_none c.simulates'.wellFormed o, h] at hover'
    simp at hover'
  obtain ⟨q₁, hq₁⟩ := Option.ne_none_iff_exists'.mp hnone
  have s := c.simulates.ack hq₁
  have s' := c.simulates'.ack h
  refine ⟨q₁, hq₁, s, s', ?_, ?_⟩
  · -- both keep what is above the same front
    rw [ackOffset_pending c.simulates.wellFormed hq₁, ackOffset_pending c.simulates'.wellFormed h,
      s.received_eq, s'.received_eq]
    refine List.Subperm.filter _ ?_
    have hcons := (List.perm_orderedInsert (· ≤ ·) o q.pending).subperm.trans
      ((List.subperm_cons o).mpr c.subperm)
    exact hcons.trans (List.perm_orderedInsert _ o _).symm.subperm
  · obtain ⟨-, -, -, hc, -⟩ := ackOffset_spec c.simulates.wellFormed hq₁
    obtain ⟨-, -, -, hc', -⟩ := ackOffset_spec c.simulates'.wellFormed h
    rw [hc, hc', c.committed_eq]

/-- **Each call keeps the two queues in step**, and is possible on `q` where it is on `q'`. -/
theorem step_covers {q q' q₁' : UnorderedOffsetCommitQueue} {r : Reference} {call : Call}
    (c : Covers q q' r) (h : step q' call = some q₁') :
    ∃ q₁, step q call = some q₁ ∧ Covers q₁ q₁' (r.step call) := by
  cases call with
  | waitOffset o =>
    obtain rfl : q'.waitOffset o = q₁' := by simpa [step] using h
    have hkeep (q : UnorderedOffsetCommitQueue) :
        (q.waitOffset o).pending = q.pending ∧ (q.waitOffset o).committed = q.committed := by
      unfold waitOffset
      split <;> exact ⟨rfl, rfl⟩
    refine ⟨q.waitOffset o, rfl, c.simulates.wait o, c.simulates'.wait o, ?_, ?_⟩
    · rw [(hkeep q).1, (hkeep q').1]
      exact c.subperm
    · rw [(hkeep q).2, (hkeep q').2, c.committed_eq]
  | ackOffset o => exact c.ack h
  | popOffsetToCommit =>
    have hkeep (q : UnorderedOffsetCommitQueue) : q.popOffsetToCommit.1.pending = q.pending ∧
        q.popOffsetToCommit.1.committed = q.toCommit := by
      unfold popOffsetToCommit
      split
      next => exact ⟨rfl, rfl⟩
      next heq => exact ⟨rfl, not_not.mp heq⟩
    have hpop : step q .popOffsetToCommit = some q.popOffsetToCommit.1 := rfl
    have s := step_simulates c.simulates hpop
    have s' := step_simulates c.simulates' h
    obtain rfl : q'.popOffsetToCommit.1 = q₁' := by simpa [step] using h
    refine ⟨q.popOffsetToCommit.1, rfl, s, s', ?_, ?_⟩
    · rw [(hkeep q).1, (hkeep q').1]
      exact c.subperm
    · rw [(hkeep q).2, (hkeep q').2, c.simulates.toCommit_eq, c.simulates'.toCommit_eq]
  | lastPoppedOffset =>
    obtain rfl : q' = q₁' := by simpa [step] using h
    exact ⟨q, rfl, c⟩

/-- A duplicate or stale acknowledgement leads to a queue the one before covers. -/
theorem Simulates.covers_ack {q q' : UnorderedOffsetCommitQueue} {r : Reference}
    (s : Simulates q r) {o : Offset} (ho : DuplicateOrStale q o) (h : q.ackOffset o = some q') :
    Covers q q' r := by
  have s' := s.ack h
  rw [s.ackOffset_of_duplicateOrStale ho] at s'
  obtain ⟨-, -, -, hc, -⟩ := ackOffset_spec s.wellFormed h
  refine ⟨s, s', ?_, hc.symm⟩
  rw [ackOffset_pending s.wellFormed h, s'.received_eq, ← s.received_eq]
  have hfilter : q.pending = q.pending.filter fun p => q.offsetsReceived.head?.any (· < p) := by
    refine (List.filter_eq_self.mpr fun p hp => ?_).symm
    cases hrcv : q.offsetsReceived with
    | nil => simp [s.drained hrcv] at hp
    | cons e rest => simpa using s.above e (by simp [hrcv]) p hp
  rw [hfilter]
  refine List.Subperm.filter _ ?_
  rw [← hfilter]
  exact (List.sublist_orderedInsert o q.pending).subperm

/-- A run goes through just the same without a duplicate or stale acknowledgement in it. -/
theorem run_without_ack {q q' : UnorderedOffsetCommitQueue} {r : Reference} {o : Offset}
    {after : List Call} (s : Simulates q r) (ho : DuplicateOrStale q o)
    (h : run step q (.ackOffset o :: after) = some q') :
    ∃ q₁ r₁, run step q after = some q₁ ∧ Covers q₁ q' r₁ := by
  obtain ⟨q₀, hack, hrest⟩ := (run_cons_eq_some step).mp h
  have hstep (q' q : UnorderedOffsetCommitQueue) (call : Call) (q₁' : UnorderedOffsetCommitQueue)
      (hc : ∃ r, Covers q q' r) (hcall : step q' call = some q₁') :
      ∃ q₁, step q call = some q₁ ∧ ∃ r, Covers q₁ q₁' r := by
    obtain ⟨r, c⟩ := hc
    obtain ⟨q₁, hq₁, c₁⟩ := step_covers c hcall
    exact ⟨q₁, hq₁, r.step call, c₁⟩
  obtain ⟨q₁, hq₁, r₁, c₁⟩ := run_simulation hstep ⟨r, s.covers_ack ho hack⟩ hrest
  exact ⟨q₁, r₁, hq₁, c₁⟩

/-! ## §4. Every run. -/

/-- **The queue agrees with the set algorithm** after every call of a run that reads no empty
container, the deque is strictly increasing and not negative, and everything in the heap is
larger than its front.  Later results are those of the run without a duplicate or stale
acknowledgement. -/
theorem run_agrees (info : String) (cs : List Call)
    (hok : Along step SafeCall (fresh info) cs) :
    (∀ pre, pre <+: cs → ∃ q, run step (fresh info) pre = some q ∧
      q.offsetsReceived = (Reference.after pre).received ∧
      q.toCommit = (Reference.after pre).toCommit ∧
      q.offsetsReceived.Pairwise (· < ·) ∧ (∀ o ∈ q.offsetsReceived, 0 ≤ o) ∧
      (∀ e ∈ q.offsetsReceived.head?, ∀ p ∈ q.offsetsToCommit.data.toList, e < p) ∧
      (q.offsetsReceived = [] → q.offsetsToCommit.empty = true)) ∧
    (∀ before o after q, cs = before ++ .ackOffset o :: after →
      run step (fresh info) before = some q → DuplicateOrStale q o →
      ∀ pre, pre <+: after → ∃ q₁ q₂,
        run step (fresh info) (before ++ .ackOffset o :: pre) = some q₁ ∧
        run step (fresh info) (before ++ pre) = some q₂ ∧
        q₁.offsetsReceived = q₂.offsetsReceived ∧ q₁.toCommit = q₂.toCommit ∧
        q₁.committed = q₂.committed) := by
  have hexists (pre : List Call) (hpre : pre <+: cs) : ∃ q, run step (fresh info) pre = some q := by
    obtain ⟨post, rfl⟩ := hpre
    have := (run_safe_iff info pre).mpr (Along.append.mp hok).1
    exact Option.isSome_iff_exists.mp this
  refine ⟨fun pre hpre => ?_, ?_⟩
  · obtain ⟨q, hq⟩ := hexists pre hpre
    have s : Simulates q (Reference.after pre) := run_simulates (simulates_fresh info) hq
    refine ⟨q, hq, s.received_eq, s.toCommit_eq, s.wellFormed.increasing, s.wellFormed.nonneg,
      fun e he p hp => ?_, fun hnil => Heap.sorted_eq_nil.mp (s.drained hnil)⟩
    exact s.above e he p (q.offsetsToCommit.sorted_perm.mem_iff.mpr hp)
  · rintro before o after q rfl hq ho pre ⟨post, rfl⟩
    obtain ⟨q₁, hq₁⟩ := hexists (before ++ .ackOffset o :: pre) ⟨post, by simp⟩
    have s : Simulates q (Reference.after before) := run_simulates (simulates_fresh info) hq
    have hrest : run step q (.ackOffset o :: pre) = some q₁ := by
      simpa [run_append, hq] using hq₁
    obtain ⟨q₂, r, hq₂, c⟩ := run_without_ack s ho hrest
    refine ⟨q₁, q₂, hq₁, by simp [run_append, hq, hq₂], ?_, ?_, c.committed_eq.symm⟩
    · rw [c.simulates.received_eq, c.simulates'.received_eq]
    · rw [c.simulates.toCommit_eq, c.simulates'.toCommit_eq]

/-- A duplicate, a stale one, a gap and a too early acknowledgement, and two records later. -/
theorem run_agrees_abnormal :
    ∃ q, run step (fresh "") [.waitOffset 1, .waitOffset 3, .waitOffset 4, .ackOffset 3,
        .ackOffset 3, .ackOffset 0, .ackOffset 2, .ackOffset 1, .ackOffset 7] = some q ∧
      q.toCommit = 4 ∧ q.offsetsReceived = [4] ∧
      Reference.after [.waitOffset 1, .waitOffset 3, .waitOffset 4, .ackOffset 3, .ackOffset 3,
        .ackOffset 0, .ackOffset 2, .ackOffset 1, .ackOffset 7]
        = { pending := {7}, received := [4], toCommit := 4 } := by
  have hok : Along step SafeCall (fresh "") [.waitOffset 1, .waitOffset 3, .waitOffset 4,
      .ackOffset 3, .ackOffset 3, .ackOffset 0, .ackOffset 2, .ackOffset 1, .ackOffset 7] := by
    decide +kernel
  have href : Reference.after [.waitOffset 1, .waitOffset 3, .waitOffset 4, .ackOffset 3,
      .ackOffset 3, .ackOffset 0, .ackOffset 2, .ackOffset 1, .ackOffset 7]
      = { pending := {7}, received := [4], toCommit := 4 } := by
    decide +kernel
  obtain ⟨q, hq, hrcv, hto, -⟩ := (run_agrees "" _ hok).1 _ List.prefix_rfl
  rw [href] at hrcv hto
  exact ⟨q, hq, hto, hrcv, href⟩

end ModernCppKafka.Queue
