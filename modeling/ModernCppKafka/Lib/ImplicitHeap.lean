/-
  ModernCppKafka.Lib.ImplicitHeap — the order of a binary min-heap laid out level by level.

  A heap is seen as a partial function `f : Nat → Option α` from positions to entries, so an
  array `a` is used through `fun i => a[i]?` and no bound has to be carried along.  Position `i`
  hangs below `parent i`, and `lt` is any strict weak order.

  The two sifts break the order at ONE position and repair it on a path:
    * `UpReady f i`   — only the edge into `i` may be out of order (sift-up);
    * `DownReady f i` — only the edges out of `i` may be out of order (sift-down).
  `UpReady.swap` and `DownReady.swap` move the broken position one level along the path,
  `UpReady.ordered` and `DownReady.ordered` close it, and `HeapOrdered.root` reads off the minimum.
-/
import Mathlib.Order.Defs.Unbundled
import Mathlib.Tactic

namespace ModernCppKafka.Lib.ImplicitHeap

/-! ## §1. Positions. -/

/-- The position a position hangs below (position 0 is the root). -/
def parent (i : Nat) : Nat := (i + 1) / 2 - 1

theorem parent_lt {i : Nat} (h : 0 < i) : parent i < i := by
  unfold parent; omega

/-- A position has two children. -/
theorem child_cases {i j : Nat} (hj : 0 < j) (h : parent j = i) :
    j = 2 * i + 1 ∨ j = 2 * i + 2 := by
  unfold parent at h; omega

theorem parent_left (i : Nat) : parent (2 * i + 1) = i := by
  unfold parent; omega

theorem parent_right (i : Nat) : parent (2 * i + 2) = i := by
  unfold parent; omega

/-! ## §2. Edges, and the order they make. -/

section Order

variable {α : Type*} (lt : α → α → Prop)

/-- The entry at `i` is not after the entry at `j` (vacuous off the heap). -/
def Edge (f : Nat → Option α) (i j : Nat) : Prop :=
  ∀ x y, f i = some x → f j = some y → ¬ lt y x

/-- No entry is before its parent. -/
def HeapOrdered (f : Nat → Option α) : Prop :=
  ∀ i, 0 < i → Edge lt f (parent i) i

/-- What sift-up needs: every edge but the one into `i` is in order, and the parent of `i` is
not after the children of `i`. -/
structure UpReady (f : Nat → Option α) (i : Nat) : Prop where
  except : ∀ j, 0 < j → j ≠ i → Edge lt f (parent j) j
  grand : ∀ j, 0 < j → parent j = i → 0 < i → Edge lt f (parent i) j

/-- What sift-down needs: every edge but those out of `i` is in order, and the parent of `i` is
not after the children of `i`. -/
structure DownReady (f : Nat → Option α) (i : Nat) : Prop where
  except : ∀ j, 0 < j → parent j ≠ i → Edge lt f (parent j) j
  grand : ∀ j, 0 < j → parent j = i → 0 < i → Edge lt f (parent i) j

/-- Exchange the entries at two positions. -/
def swapAt (f : Nat → Option α) (i j : Nat) : Nat → Option α :=
  fun k => if k = i then f j else if k = j then f i else f k

@[simp] theorem swapAt_left (f : Nat → Option α) (i j : Nat) : swapAt f i j i = f j := by
  simp [swapAt]

@[simp] theorem swapAt_right (f : Nat → Option α) (i j : Nat) : swapAt f i j j = f i := by
  unfold swapAt; split <;> simp_all

theorem swapAt_other (f : Nat → Option α) {i j k : Nat} (hi : k ≠ i) (hj : k ≠ j) :
    swapAt f i j k = f k := by
  simp [swapAt, hi, hj]

/-- Edges depend only on the two entries they join. -/
theorem Edge.congr {f g : Nat → Option α} {i j i' j' : Nat} (h : Edge lt f i j)
    (hi : g i' = f i) (hj : g j' = f j) : Edge lt g i' j' := by
  intro x y hx hy
  exact h x y (hi ▸ hx) (hj ▸ hy)

/-! ## §3. Transitivity of "not after" in a strict weak order. -/

variable {lt}

/-- A strict weak order is negatively transitive. -/
theorem not_lt_trans [IsStrictWeakOrder α lt] {x y z : α}
    (hyx : ¬ lt y x) (hzy : ¬ lt z y) : ¬ lt z x := by
  intro hzx
  by_cases hxy : lt x y
  · exact hzy (trans_of lt hzx hxy)
  · by_cases hyz : lt y z
    · exact hyx (trans_of lt hyz hzx)
    · exact (IsStrictWeakOrder.incomp_trans x y z ⟨hxy, hyx⟩ ⟨hyz, hzy⟩).2 hzx

theorem Edge.trans [IsStrictWeakOrder α lt] {f : Nat → Option α} {i j k : Nat} {y : α}
    (hj : f j = some y) (hij : Edge lt f i j) (hjk : Edge lt f j k) : Edge lt f i k := by
  intro x z hx hz
  exact not_lt_trans (hij x y hx hj) (hjk y z hj hz)

/-- A strictly smaller entry gives an edge. -/
theorem Edge.of_lt [IsStrictWeakOrder α lt] {f : Nat → Option α} {i j : Nat} {x y : α}
    (hi : f i = some x) (hj : f j = some y) (h : lt x y) : Edge lt f i j := by
  intro x' y' hx hy
  obtain rfl : x = x' := by simpa [hi] using hx
  obtain rfl : y = y' := by simpa [hj] using hy
  exact asymm_of lt h

/-! ## §4. Sift-up. -/

/-- One sift-up step: a position smaller than its parent is exchanged with it. -/
theorem UpReady.swap [IsStrictWeakOrder α lt] {f : Nat → Option α} {i : Nat} {x y : α}
    (r : UpReady lt f i) (hpos : 0 < i) (hi : f i = some x) (hp : f (parent i) = some y)
    (h : lt x y) : UpReady lt (swapAt f i (parent i)) (parent i) := by
  have hpi : parent i < i := parent_lt hpos
  constructor
  · intro j hj hjp
    by_cases hji : j = i
    · -- the edge just repaired
      subst hji
      exact (Edge.of_lt hi hp h).congr lt (by simp) (by simp)
    · by_cases hpj : parent j = i
      · -- a child of `i`: its new parent was its grandparent
        exact (r.grand j hj hpj hpos).congr lt (by rw [hpj]; simp) (swapAt_other f hji hjp)
      · by_cases hpp : parent j = parent i
        · -- the sibling of `i`: its new parent is even smaller
          have hsib : Edge lt f (parent i) j := hpp ▸ r.except j hj hji
          exact (Edge.trans hp (Edge.of_lt hi hp h) hsib).congr lt (by rw [hpp]; simp)
            (swapAt_other f hji hjp)
        · exact (r.except j hj hji).congr lt (swapAt_other f hpj hpp) (swapAt_other f hji hjp)
  · intro j hj hjp hppos
    have hpp : parent (parent i) < parent i := parent_lt hppos
    have hup : Edge lt f (parent (parent i)) (parent i) := r.except _ hppos (by omega)
    have hfix : swapAt f i (parent i) (parent (parent i)) = f (parent (parent i)) :=
      swapAt_other f (by omega) (by omega)
    by_cases hji : j = i
    · subst hji
      exact hup.congr lt hfix (by simp)
    · have hjp' : j ≠ parent i := by
        intro he
        rw [he] at hjp
        omega
      have hsib : Edge lt f (parent i) j := hjp ▸ r.except j hj hji
      exact (Edge.trans hp hup hsib).congr lt hfix (swapAt_other f hji hjp')

/-- Sift-up stops: the root, or a position not smaller than its parent. -/
theorem UpReady.ordered {f : Nat → Option α} {i : Nat} (r : UpReady lt f i)
    (h : 0 < i → Edge lt f (parent i) i) : HeapOrdered lt f := by
  intro j hj
  by_cases hji : j = i
  · subst hji
    exact h hj
  · exact r.except j hj hji

/-- Appending one entry leaves only the edge into it unchecked. -/
theorem HeapOrdered.upReady_of_append {f g : Nat → Option α} {n : Nat} (h : HeapOrdered lt f)
    (hsame : ∀ k, k < n → g k = f k) (hend : ∀ k, n < k → g k = none) : UpReady lt g n := by
  constructor
  · intro j hj hjn
    rcases Nat.lt_or_gt_of_ne hjn with hlt | hgt
    · exact (h j hj).congr lt (hsame _ (by have := parent_lt hj; omega)) (hsame j hlt)
    · intro x y _ hy
      simp [hend j hgt] at hy
  · intro j hj hjn hn x y _ hy
    have : n < j := by have := parent_lt hj; omega
    simp [hend j this] at hy

/-! ## §5. Sift-down. -/

/-- One sift-down step: a position is exchanged with its smaller child `c`. -/
theorem DownReady.swap [IsStrictWeakOrder α lt] {f : Nat → Option α} {i c : Nat} {x y : α}
    (r : DownReady lt f i) (hc : 0 < c) (hpc : parent c = i)
    (hmin : ∀ j, 0 < j → parent j = i → Edge lt f c j)
    (hi : f i = some x) (hfc : f c = some y) (h : lt y x) :
    DownReady lt (swapAt f i c) c := by
  have hic : i < c := hpc ▸ parent_lt hc
  constructor
  · intro j hj hpj
    by_cases hji : parent j = i
    · -- the children of `i` now hang below the smaller one
      by_cases hjc : j = c
      · subst hjc
        exact (Edge.of_lt hfc hi h).congr lt (by rw [hji]; simp) (by simp)
      · have hji' : j ≠ i := by
          intro he
          have := parent_lt hj
          omega
        exact (hmin j hj hji).congr lt (by rw [hji]; simp) (swapAt_other f hji' hjc)
    · have hjc : j ≠ c := fun he => hji (he ▸ hpc)
      by_cases hj' : j = i
      · -- the edge into `i`: its new entry was a child of `i`
        subst hj'
        have hne : parent j ≠ j := by have := parent_lt hj; omega
        exact (r.grand c hc hpc hj).congr lt (swapAt_other f hne hpj) (by simp)
      · exact (r.except j hj hji).congr lt (swapAt_other f hji hpj) (swapAt_other f hj' hjc)
  · intro j hj hpj _
    have hcj : c < j := hpj ▸ parent_lt hj
    have hold : Edge lt f c j := hpj ▸ r.except j hj (by omega)
    exact hold.congr lt (by rw [hpc]; simp) (swapAt_other f (by omega) (by omega))

/-- Sift-down stops: no child is before its parent. -/
theorem DownReady.ordered {f : Nat → Option α} {i : Nat} (r : DownReady lt f i)
    (h : ∀ j, 0 < j → parent j = i → Edge lt f i j) : HeapOrdered lt f := by
  intro j hj
  by_cases hji : parent j = i
  · exact hji ▸ h j hj hji
  · exact r.except j hj hji

/-- Replacing the root, and cutting the end off, leaves only the edges out of the root
unchecked. -/
theorem HeapOrdered.downReady_of_root {f g : Nat → Option α} (h : HeapOrdered lt f)
    (hsame : ∀ k, 0 < k → g k = f k ∨ g k = none) : DownReady lt g 0 := by
  constructor
  · intro j hj hpj x y hx hy
    have hp := hsame (parent j) (by omega)
    have hj' := hsame j hj
    simp only [hx, hy, reduceCtorEq, or_false] at hp hj'
    exact h j hj x y hp.symm hj'.symm
  · intro j _ _ h0
    exact absurd h0 (lt_irrefl 0)

/-! ## §6. The root is a minimum. -/

/-- In an ordered heap without holes no entry is before the root. -/
theorem HeapOrdered.root [IsStrictWeakOrder α lt] {f : Nat → Option α} (h : HeapOrdered lt f)
    (hfull : ∀ i j, i ≤ j → (f j).isSome → (f i).isSome) (i : Nat) : Edge lt f 0 i := by
  induction i using Nat.strong_induction_on with
  | _ i ih =>
    rcases Nat.eq_zero_or_pos i with rfl | hpos
    · intro x y hx hy
      obtain rfl : x = y := by simpa [hx] using hy
      exact irrefl_of lt x
    · intro x z hx hz
      have hp := hfull (parent i) i (parent_lt hpos).le (by simp [hz])
      obtain ⟨y, hy⟩ := Option.isSome_iff_exists.mp hp
      exact Edge.trans hy (ih (parent i) (parent_lt hpos)) (h i hpos) x z hx hz

end Order

end ModernCppKafka.Lib.ImplicitHeap
