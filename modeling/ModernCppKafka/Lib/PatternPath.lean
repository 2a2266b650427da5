/-
  ModernCppKafka.Lib.PatternPath — the paths of a pattern through a labelled tree.

  A pattern is a list of keys, one for each step.  A relation says where a key may go from a
  node; `choose` lists the moves of a key, in order.  A path is known by the positions it takes,
  and paths compare as those lists do, lexicographically: that is the order of a walk that
  visits the nodes depth first.

  The rules:
    * `mem_search`    — the search finds exactly the paths whose moves are listed;
    * `search_sorted` — it finds them in order, each once;
    * `Path.imp`      — a path of one relation is a path of another that allows its steps;
    * `Path.all`      — what every step keeps of the nodes, and says of the labels.
-/
import Mathlib.Data.List.Basic

namespace ModernCppKafka.Lib.PatternPath

variable {K N ι L : Type*}

/-- The path of a pattern from a node: positions taken, labels met, and the node it ends in. -/
inductive Path (step : K → N → ι → L → N → Prop) : List K → N → List ι → List L → N → Prop
  | nil (n : N) : Path step [] n [] [] n
  | cons {k : K} {ks : List K} {n c m : N} {i : ι} {l : L} {is : List ι} {ls : List L} :
      step k n i l c → Path step ks c is ls m → Path step (k :: ks) n (i :: is) (l :: ls) m

section Path

variable {step step' : K → N → ι → L → N → Prop}

theorem path_nil {n m : N} {is : List ι} {ls : List L} :
    Path step [] n is ls m ↔ is = [] ∧ ls = [] ∧ m = n := by
  constructor
  · rintro ⟨⟩
    exact ⟨rfl, rfl, rfl⟩
  · rintro ⟨rfl, rfl, rfl⟩
    exact .nil m

theorem path_cons {k : K} {ks : List K} {n m : N} {is : List ι} {ls : List L} :
    Path step (k :: ks) n is ls m ↔ ∃ i l c is' ls', step k n i l c ∧ Path step ks c is' ls' m ∧
      is = i :: is' ∧ ls = l :: ls' := by
  constructor
  · intro h
    cases h with
    | cons hstep hrest => exact ⟨_, _, _, _, _, hstep, hrest, rfl, rfl⟩
  · rintro ⟨i, l, c, is', ls', hstep, hrest, rfl, rfl⟩
    exact .cons hstep hrest

/-- Steps allowed by another relation make a path of it; `Inv` holds of the nodes on the way. -/
theorem Path.imp {Inv : N → Prop}
    (hstep : ∀ k n i l c, Inv n → step k n i l c → step' k n i l c ∧ Inv c) {ks : List K}
    {n m : N} {is : List ι} {ls : List L} (hn : Inv n) (h : Path step ks n is ls m) :
    Path step' ks n is ls m := by
  induction h with
  | nil n => exact .nil n
  | cons hk _ ih =>
    obtain ⟨hk', hc⟩ := hstep _ _ _ _ _ hn hk
    exact .cons hk' (ih hc)

/-- What the steps keep holds of the node a path ends in, and what they say of a label holds of
each label met. -/
theorem Path.all {Inv : N → Prop} {P : L → Prop}
    (hstep : ∀ k n i l c, Inv n → step k n i l c → P l ∧ Inv c) {ks : List K} {n m : N}
    {is : List ι} {ls : List L} (hn : Inv n) (h : Path step ks n is ls m) :
    (∀ l ∈ ls, P l) ∧ Inv m := by
  induction h with
  | nil n => exact ⟨by simp, hn⟩
  | cons hk _ ih =>
    obtain ⟨hl, hc⟩ := hstep _ _ _ _ _ hn hk
    obtain ⟨hls, hm⟩ := ih hc
    exact ⟨List.forall_mem_cons.mpr ⟨hl, hls⟩, hm⟩

end Path

section Search

variable (choose : K → N → List (ι × L × N))

/-- All paths of the pattern, in the order of the moves. -/
def search : List K → N → List (List ι × List L × N)
  | [], n => [([], [], n)]
  | k :: ks, n =>
    (choose k n).flatMap fun (i, l, c) =>
      (search ks c).map fun (is, ls, m) => (i :: is, l :: ls, m)

variable {choose}

/-- The search finds exactly the paths whose moves are listed. -/
theorem mem_search {ks : List K} {n m : N} {is : List ι} {ls : List L} :
    (is, ls, m) ∈ search choose ks n ↔
      Path (fun k n i l c => (i, l, c) ∈ choose k n) ks n is ls m := by
  induction ks generalizing n is ls with
  | nil => simp [search, path_nil]
  | cons k ks ih =>
    rw [path_cons, search, List.mem_flatMap]
    constructor
    · rintro ⟨⟨i, l, c⟩, hmove, hrest⟩
      obtain ⟨⟨is', ls', m'⟩, hmem, heq⟩ := List.mem_map.mp hrest
      obtain ⟨rfl, rfl, rfl⟩ : i :: is' = is ∧ l :: ls' = ls ∧ m' = m := by simpa using heq
      exact ⟨i, l, c, is', ls', hmove, ih.mp hmem, rfl, rfl⟩
    · rintro ⟨i, l, c, is', ls', hmove, hrest, rfl, rfl⟩
      exact ⟨(i, l, c), hmove, List.mem_map.mpr ⟨(is', ls', m), ih.mpr hrest, rfl⟩⟩

/-- With the moves of each key in order, so are the paths, and none is found twice. -/
theorem search_sorted [LT ι] (hchoose : ∀ k n, (choose k n).Pairwise (·.1 < ·.1)) (ks : List K)
    (n : N) : (search choose ks n).Pairwise (·.1 < ·.1) := by
  induction ks generalizing n with
  | nil => exact List.pairwise_singleton _ _
  | cons k ks ih =>
    rw [search, List.pairwise_flatMap]
    constructor
    · -- after one move, the rest decides
      rintro ⟨i, l, c⟩ -
      rw [List.pairwise_map]
      exact (ih c).imp fun hlt => List.cons_lt_cons_iff.mpr (.inr ⟨rfl, hlt⟩)
    · -- the first position at which two paths part decides
      refine (hchoose k n).imp ?_
      rintro ⟨i, l, c⟩ ⟨i', l', c'⟩ hlt p hp p' hp'
      obtain ⟨q, -, rfl⟩ := List.mem_map.mp hp
      obtain ⟨q', -, rfl⟩ := List.mem_map.mp hp'
      exact List.cons_lt_cons_iff.mpr (.inl hlt)

end Search

end ModernCppKafka.Lib.PatternPath
