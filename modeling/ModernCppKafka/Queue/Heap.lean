/-
  ModernCppKafka.Queue.Heap — `Heap<T>` of include/kafka/addons/UnorderedOffsetCommitQueue.h.

  `std::vector<T> data` is an `Array T`, and `T`'s only operation is `operator<`.  Every
  `data.at(i)` may throw `std::out_of_range` and `data.back()` needs a non-empty vector, so the
  member functions return an `Option`: `none` is that failure.  The two loops run on the index
  they move, exactly as written (`((i + 1) / 2) - 1`, `(i + 1) * 2`).

  Main results, for any strict weak order and any heap whose entries are in order:
    * `push_spec`     — `push` succeeds, keeps the order, and adds exactly its argument;
    * `popFront_spec` — on a non-empty heap `pop_front` succeeds, keeps the order, and removes
      exactly the entry `front()` returned;
    * `front_min`     — no entry is before `front()`.
-/
import Mathlib.Data.List.Perm.Basic
import ModernCppKafka.Lib.ImplicitHeap

namespace ModernCppKafka.Queue

open ModernCppKafka.Lib.ImplicitHeap

/-- `template <typename T> class Heap`. -/
structure Heap (T : Type) where
  data : Array T := #[]
  deriving DecidableEq, Repr

namespace Heap

/-! ## §1. The member functions. -/

section Model

variable {T : Type} [LT T] [DecidableLT T]

def empty (h : Heap T) : Bool := h.data.isEmpty

def size (h : Heap T) : Nat := h.data.size

/-- `front()`: `data.at(0)`. -/
def front (h : Heap T) : Option T := h.data[0]?

/-- The loop of `push`, from index `indexCurrent`. -/
def siftUp (data : Array T) (indexCurrent : Nat) : Option (Array T) :=
  if 0 < indexCurrent then
    let indexParent := (indexCurrent + 1) / 2 - 1
    match data[indexCurrent]?, data[indexParent]? with
    | some current, some par =>
        if ¬ current < par then some data
        else siftUp (data.swapIfInBounds indexCurrent indexParent) indexParent
    | _, _ => none
  else some data
termination_by indexCurrent

/-- `push(t)`. -/
def push (h : Heap T) (t : T) : Option (Heap T) :=
  let data := h.data.push t
  (siftUp data (data.size - 1)).map Heap.mk

/-- The choice of `indexMinChild` in `pop_front`. -/
def indexMinChild (data : Array T) (indexLeftChild indexRightChild : Nat) : Option Nat :=
  if data.size ≤ indexRightChild then some indexLeftChild
  else
    match data[indexLeftChild]?, data[indexRightChild]? with
    | some left, some right => some (if left < right then indexLeftChild else indexRightChild)
    | _, _ => none

theorem indexMinChild_cases {data : Array T} {l r m : Nat}
    (h : indexMinChild data l r = some m) : m = l ∨ (m = r ∧ r < data.size) := by
  unfold indexMinChild at h
  grind

/-- The loop of `pop_front`, from index `indexCurrent`. -/
def siftDown (data : Array T) (indexCurrent : Nat) : Option (Array T) :=
  let indexRightChild := (indexCurrent + 1) * 2
  let indexLeftChild := indexRightChild - 1
  if data.size ≤ indexLeftChild then some data
  else
    match _hm : indexMinChild data indexLeftChild indexRightChild with
    | none => none
    | some minChild =>
        match data[minChild]?, data[indexCurrent]? with
        | some child, some current =>
            if ¬ child < current then some data
            else siftDown (data.swapIfInBounds indexCurrent minChild) minChild
        | _, _ => none
termination_by data.size - indexCurrent
decreasing_by
  have := indexMinChild_cases _hm
  simp only [Array.size_swapIfInBounds]
  omega

/-- Sift-down only exchanges entries. -/
theorem siftDown_size {data data' : Array T} {i : Nat} (h : siftDown data i = some data') :
    data'.size = data.size := by
  fun_induction siftDown data i with
  | case4 =>
    rename_i ih
    simpa using ih h
  | _ => simp_all

/-- `pop_front()`. -/
def popFront (h : Heap T) : Option (Heap T) :=
  match h.data.back? with
  | none => none
  | some last =>
      let data := (h.data.setIfInBounds 0 last).pop
      if data.isEmpty then some ⟨data⟩
      else (siftDown data 0).map Heap.mk

/-- A successful `pop_front` leaves one element fewer. -/
theorem popFront_size {h h' : Heap T} (he : h.popFront = some h') : h'.size < h.size := by
  unfold popFront at he
  split at he
  · simp at he
  next last hlast =>
    have hpos : 0 < h.data.size := by
      rw [Array.back?_eq_getElem?] at hlast
      have := (Array.getElem?_eq_some_iff.mp hlast).1
      omega
    have hcut : ((h.data.setIfInBounds 0 last).pop).size = h.data.size - 1 := by simp
    simp only at he
    split at he
    · obtain rfl : _ = h' := by simpa using he
      simp only [size, hcut]
      omega
    · obtain ⟨data, hd, rfl⟩ := Option.map_eq_some_iff.mp he
      simp only [size, siftDown_size hd, hcut]
      omega

end Model

/-! ## §2. Arrays as positions. -/

section Positions

variable {T : Type}

/-- The entries of a vector by position. -/
def at? (data : Array T) : Nat → Option T := fun i => data[i]?

theorem at?_swap {data : Array T} {i j : Nat} (hi : i < data.size) (hj : j < data.size) :
    at? (data.swapIfInBounds i j) = swapAt (at? data) i j := by
  funext k
  simp only [at?, swapAt, Array.swapIfInBounds_def, hi, hj, dite_true, Array.getElem?_swap]
  grind

theorem at?_isSome {data : Array T} {i j : Nat} (h : i ≤ j) (hj : (at? data j).isSome) :
    (at? data i).isSome := by
  simp only [at?, Option.isSome_iff_exists, Array.getElem?_eq_some_iff] at hj ⊢
  obtain ⟨y, hlt, -⟩ := hj
  exact ⟨data[i], by omega, rfl⟩

theorem swapIfInBounds_perm (data : Array T) {i j : Nat} (hi : i < data.size)
    (hj : j < data.size) : (data.swapIfInBounds i j).toList.Perm data.toList := by
  simp only [Array.swapIfInBounds_def, hi, hj, dite_true]
  exact (Array.swap_perm hi hj).toList

/-- The index arithmetic of `push` is the heap's parent. -/
theorem indexParent_eq (i : Nat) : (i + 1) / 2 - 1 = parent i := rfl

theorem front_eq_head? (h : Heap T) : h.front = h.data.toList.head? := by
  rw [front, List.head?_eq_getElem?, Array.getElem?_toList]

theorem front_eq_none {h : Heap T} : h.front = none ↔ h.data.toList = [] := by
  rw [front_eq_head?, List.head?_eq_none_iff]

/-- Replacing the first entry of a list by its last and cutting the end off drops the first. -/
theorem perm_cut_root (x : T) (l : List T) (last : T) (hlast : (x :: l).getLast? = some last) :
    (x :: l).Perm (x :: ((x :: l).set 0 last).dropLast) := by
  cases l with
  | nil => simp
  | cons y ys =>
    have hl : (y :: ys).getLast? = some last := by simpa using hlast
    have happ : (y :: ys).dropLast ++ [last] = y :: ys := List.dropLast_append_getLast? _ hl
    have hcut : ((x :: y :: ys).set 0 last).dropLast = last :: (y :: ys).dropLast := by simp
    rw [hcut]
    refine List.Perm.cons x ?_
    have hrot : ((y :: ys).dropLast ++ [last]).Perm (last :: (y :: ys).dropLast) :=
      List.perm_append_singleton last _
    rwa [happ] at hrot

end Positions

/-! ## §3. Sift-up. -/

section Spec

variable {T : Type} [LT T] [DecidableLT T] [IsStrictWeakOrder T (· < ·)]

/-- The entries of the heap are in order: none is before its parent. -/
def Ordered (h : Heap T) : Prop := HeapOrdered (· < ·) (at? h.data)

theorem siftUp_spec (data : Array T) (i : Nat) (hi : i < data.size)
    (r : UpReady (· < ·) (at? data) i) :
    ∃ data', siftUp data i = some data' ∧ HeapOrdered (· < ·) (at? data')
      ∧ data'.toList.Perm data.toList := by
  induction i using Nat.strong_induction_on generalizing data with
  | _ i ih =>
    rw [siftUp, indexParent_eq]
    by_cases hpos : 0 < i
    · have hp : parent i < data.size := (parent_lt hpos).trans hi
      simp only [hpos, if_true, Array.getElem?_eq_getElem hi, Array.getElem?_eq_getElem hp]
      by_cases hlt : data[i] < data[parent i]
      · simp only [hlt, not_true, if_false]
        have r' : UpReady (· < ·) (at? (data.swapIfInBounds i (parent i))) (parent i) := by
          rw [at?_swap hi hp]
          exact r.swap hpos (Array.getElem?_eq_getElem hi) (Array.getElem?_eq_getElem hp) hlt
        obtain ⟨data', hs, ho, hperm⟩ := ih (parent i) (parent_lt hpos)
          (data.swapIfInBounds i (parent i)) (by simpa using hp) r'
        exact ⟨data', hs, ho, hperm.trans (swapIfInBounds_perm data hi hp)⟩
      · simp only [hlt, not_false_eq_true, if_true]
        refine ⟨data, rfl, r.ordered fun _ x y hx hy => ?_, List.Perm.refl _⟩
        obtain rfl : data[parent i] = x := by simpa [at?, hp] using hx
        obtain rfl : data[i] = y := by simpa [at?, hi] using hy
        exact hlt
    · simp only [hpos, if_false]
      exact ⟨data, rfl, r.ordered (fun h => absurd h hpos), List.Perm.refl _⟩

/-- **`push`** succeeds, keeps the order, and adds exactly the given element. -/
theorem push_spec {h : Heap T} (ho : h.Ordered) (t : T) :
    ∃ h', h.push t = some h' ∧ h'.Ordered ∧ h'.data.toList.Perm (t :: h.data.toList) := by
  have hready : UpReady (· < ·) (at? (h.data.push t)) h.data.size := by
    refine HeapOrdered.upReady_of_append ho (fun k hk => ?_) (fun k hk => ?_)
    · simp only [at?, Array.getElem?_push]
      simp [hk.ne]
    · simp only [at?, Array.getElem?_push]
      simp [hk.ne', hk.le]
  obtain ⟨data', hs, ho', hperm⟩ := siftUp_spec (h.data.push t) h.data.size (by simp) hready
  refine ⟨⟨data'⟩, by simp [push, hs], ho', hperm.trans ?_⟩
  rw [Array.toList_push]
  exact List.perm_append_singleton t h.data.toList

/-! ## §4. Sift-down. -/

/-- With a left child in the vector, `indexMinChild` is a child no other child is before. -/
theorem indexMinChild_spec {data : Array T} {i : Nat} (hl : 2 * i + 1 < data.size) :
    ∃ m, indexMinChild data (2 * i + 1) (2 * i + 2) = some m ∧ 0 < m ∧ parent m = i
      ∧ m < data.size ∧ ∀ j, 0 < j → parent j = i → Edge (· < ·) (at? data) m j := by
  unfold indexMinChild
  by_cases hr : data.size ≤ 2 * i + 2
  · refine ⟨2 * i + 1, by simp [hr], by omega, parent_left i, hl, fun j hj hp x y hx hy => ?_⟩
    rcases child_cases hj hp with rfl | rfl
    · obtain rfl : x = y := by simpa [hx] using hy
      exact irrefl_of (· < ·) x
    · simp [at?, Array.getElem?_eq_none hr] at hy
  · have hr' : 2 * i + 2 < data.size := by omega
    simp only [hr, if_false, Array.getElem?_eq_getElem hl, Array.getElem?_eq_getElem hr']
    by_cases hlt : data[2 * i + 1] < data[2 * i + 2]
    · refine ⟨2 * i + 1, by simp [hlt], by omega, parent_left i, hl, fun j hj hp => ?_⟩
      rcases child_cases hj hp with rfl | rfl
      · intro x y hx hy
        obtain rfl : x = y := by simpa [hx] using hy
        exact irrefl_of (· < ·) x
      · exact Edge.of_lt (Array.getElem?_eq_getElem hl) (Array.getElem?_eq_getElem hr') hlt
    · refine ⟨2 * i + 2, by simp [hlt], by omega, parent_right i, hr', fun j hj hp x y hx hy => ?_⟩
      rcases child_cases hj hp with rfl | rfl
      · obtain rfl : data[2 * i + 2] = x := by simpa [at?, hr'] using hx
        obtain rfl : data[2 * i + 1] = y := by simpa [at?, hl] using hy
        exact hlt
      · obtain rfl : x = y := by simpa [hx] using hy
        exact irrefl_of (· < ·) x

theorem siftDown_spec (data : Array T) (i : Nat) (hi : i < data.size)
    (r : DownReady (· < ·) (at? data) i) :
    ∃ data', siftDown data i = some data' ∧ HeapOrdered (· < ·) (at? data')
      ∧ data'.toList.Perm data.toList := by
  induction hn : data.size - i using Nat.strong_induction_on generalizing data i with
  | _ n ih =>
    rw [siftDown]
    have hright : (i + 1) * 2 = 2 * i + 2 := by ring
    have hleft : (i + 1) * 2 - 1 = 2 * i + 1 := by omega
    by_cases hleaf : data.size ≤ 2 * i + 1
    · -- no child: nothing below `i` can be out of order
      simp only [hleft, hleaf, if_true]
      refine ⟨data, rfl, r.ordered fun j hj hp x y _ hy => ?_, List.Perm.refl _⟩
      have hge : data.size ≤ j := by rcases child_cases hj hp with rfl | rfl <;> omega
      simp [at?, Array.getElem?_eq_none hge] at hy
    · have hchild : 2 * i + 1 < data.size := by omega
      obtain ⟨m, hm, hm0, hpm, hms, hmin⟩ := indexMinChild_spec hchild
      have him : i < m := hpm ▸ parent_lt hm0
      rw [← hleft, ← hright] at hm
      rw [if_neg (by omega)]
      split
      next hnone => simp [hm] at hnone
      next m' hm' =>
        obtain rfl : m = m' := by simpa [hm] using hm'
        simp only [Array.getElem?_eq_getElem hi, Array.getElem?_eq_getElem hms]
        by_cases hlt : data[m] < data[i]
        · simp only [hlt, not_true, if_false]
          have r' : DownReady (· < ·) (at? (data.swapIfInBounds i m)) m := by
            rw [at?_swap hi hms]
            exact r.swap hm0 hpm hmin (Array.getElem?_eq_getElem hi)
              (Array.getElem?_eq_getElem hms) hlt
          obtain ⟨data', hs, ho, hperm⟩ := ih (data.size - m) (by omega)
            (data.swapIfInBounds i m) m (by simpa using hms) r' (by simp)
          exact ⟨data', hs, ho, hperm.trans (swapIfInBounds_perm data hi hms)⟩
        · simp only [hlt, not_false_eq_true, if_true]
          have hstop : Edge (· < ·) (at? data) i m := by
            intro x y hx hy
            obtain rfl : data[i] = x := by simpa [at?, hi] using hx
            obtain rfl : data[m] = y := by simpa [at?, hms] using hy
            exact hlt
          exact ⟨data, rfl, r.ordered fun j hj hp =>
            Edge.trans (Array.getElem?_eq_getElem hms) hstop (hmin j hj hp), List.Perm.refl _⟩

/-! ## §5. `front` and `pop_front`. -/

omit [DecidableLT T] in
/-- No element is before `front()`. -/
theorem front_min {h : Heap T} (ho : h.Ordered) {x y : T} (hx : h.front = some x)
    (hy : y ∈ h.data.toList) : ¬ y < x := by
  obtain ⟨i, hi⟩ := List.mem_iff_getElem?.mp hy
  rw [Array.getElem?_toList] at hi
  exact HeapOrdered.root ho (fun _ _ => at?_isSome) i x y hx hi

/-- **`pop_front`** on a non-empty heap succeeds, keeps the order, and removes exactly the
element `front()` returned. -/
theorem popFront_spec {h : Heap T} (ho : h.Ordered) {x : T} (hx : h.front = some x) :
    ∃ h', h.popFront = some h' ∧ h'.Ordered ∧ h.data.toList.Perm (x :: h'.data.toList) := by
  obtain ⟨l, hl⟩ : ∃ l, h.data.toList = x :: l := by
    rw [front_eq_head?] at hx
    exact ⟨_, (List.cons_head?_tail hx).symm⟩
  obtain ⟨last, hlast⟩ : ∃ last, h.data.back? = some last :=
    Option.isSome_iff_exists.mp (by rw [← Array.getLast?_toList, hl]; simp)
  have hcut : ((h.data.setIfInBounds 0 last).pop).toList = ((x :: l).set 0 last).dropLast := by
    rw [Array.toList_pop, Array.toList_setIfInBounds, hl]
  have hperm : h.data.toList.Perm (x :: ((h.data.setIfInBounds 0 last).pop).toList) := by
    rw [hcut, hl]
    exact perm_cut_root x l last (by rw [← hl, Array.getLast?_toList]; exact hlast)
  have hready : DownReady (· < ·) (at? (h.data.setIfInBounds 0 last).pop) 0 := by
    refine HeapOrdered.downReady_of_root ho fun k hk => ?_
    simp only [at?, Array.getElem?_pop, Array.size_setIfInBounds, Array.getElem?_setIfInBounds]
    grind
  simp only [popFront, hlast]
  by_cases he : (h.data.setIfInBounds 0 last).pop.isEmpty
  · simp only [he, if_true]
    refine ⟨_, rfl, fun i _ a b ha _ => ?_, hperm⟩
    rw [Array.isEmpty_iff] at he
    simp [at?, he] at ha
  · simp only [he]
    have hpos : 0 < (h.data.setIfInBounds 0 last).pop.size :=
      Nat.pos_of_ne_zero fun h0 => he (Array.isEmpty_iff_size_eq_zero.mpr h0)
    obtain ⟨data', hs, ho', hp'⟩ := siftDown_spec _ 0 hpos hready
    exact ⟨⟨data'⟩, by simp [hs], ho', hperm.trans (hp'.symm.cons x)⟩

end Spec

/-- The empty heap is in order. -/
theorem ordered_empty {T : Type} [LT T] : Ordered ({} : Heap T) := by
  intro i _ x y hx _
  simp [at?] at hx

end Heap

end ModernCppKafka.Queue
