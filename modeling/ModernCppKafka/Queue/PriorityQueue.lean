/-
  ModernCppKafka.Queue.PriorityQueue — `Heap<T>` is a priority queue.

  A use of a heap is a list of `push(t)` and of `front()` followed by `pop_front()`; `callHeap`
  is the effect of one, beside the list of what `front()` returned.  Seen as a multiset, the
  heap steps as `Lib.PriorityQueue` does (`callHeap_refines`), whatever the strict weak order
  its elements have, so the library's account of rows of pops is the heap's.

  Main results:
    * `heap_refines` — every use that pops non-empty heaps only, call by call;
    * `run_sorts`    — `n` pushes and `n` pops sort.
-/
import ModernCppKafka.Lib.PriorityQueue
import ModernCppKafka.Lib.Run
import ModernCppKafka.Queue.Heap

namespace ModernCppKafka.Queue.Heap

open ModernCppKafka.Lib.PriorityQueue
open ModernCppKafka.Lib.Run

/-! ## §1. Uses of a heap. -/

section Model

variable {T : Type} [LT T] [DecidableLT T]

/-- One use of the heap; `out` is what `front()` returned so far. -/
def callHeap : Heap T × List T → Op T → Option (Heap T × List T)
  | (h, out), .push t => (h.push t).map (·, out)
  | (h, out), .pop => h.front.bind fun x => h.popFront.map (·, out ++ [x])

/-- `pop_front` is called on a non-empty heap. -/
def PopsNonEmpty (s : Heap T × List T) : Op T → Prop
  | .push _ => True
  | .pop => s.1.empty = false

instance popsNonEmptyDecidable (s : Heap T × List T) : ∀ op : Op T, Decidable (PopsNonEmpty s op)
  | .push _ => .isTrue trivial
  | .pop => inferInstanceAs (Decidable (s.1.empty = false))

/-- The elements of a heap. -/
def elements (h : Heap T) : Multiset T := h.data.toList

/-- Pushes are possible on any heap. -/
theorem along_pushes (xs : List T) (s : Heap T × List T) :
    Along callHeap PopsNonEmpty s (xs.map .push) := by
  induction xs generalizing s with
  | nil => trivial
  | cons x xs ih => exact ⟨trivial, fun s' _ => ih s'⟩

end Model

theorem front_of_nonempty {T : Type} {h : Heap T} (he : h.empty = false) :
    ∃ x, h.front = some x := by
  refine Option.ne_none_iff_exists'.mp fun hnone => ?_
  rw [front_eq_none, Array.toList_eq_nil_iff] at hnone
  rw [empty, hnone] at he
  simp at he

/-! ## §2. One call. -/

section Refinement

variable {T : Type} [LT T] [DecidableLT T] [IsStrictWeakOrder T (· < ·)]

omit [DecidableLT T] [IsStrictWeakOrder T (· < ·)] in
/-- The order of a heap, in the source's index arithmetic. -/
theorem Ordered.parent_not_lt {h : Heap T} (ho : h.Ordered) {i : Nat} (hi : 0 < i) {x y : T}
    (hx : h.data[(i + 1) / 2 - 1]? = some x) (hy : h.data[i]? = some y) : ¬ y < x :=
  ho i hi x y hx hy

theorem elements_push {h : Heap T} (ho : h.Ordered) (t : T) :
    ∃ h', h.push t = some h' ∧ h'.Ordered ∧ h'.elements = t ::ₘ h.elements := by
  obtain ⟨h', hpush, ho', hperm⟩ := push_spec ho t
  exact ⟨h', hpush, ho', Multiset.coe_eq_coe.mpr hperm⟩

theorem elements_popFront {h : Heap T} (ho : h.Ordered) {x : T} (hx : h.front = some x) :
    ∃ h', h.popFront = some h' ∧ h'.Ordered ∧ h.elements = x ::ₘ h'.elements := by
  obtain ⟨h', hpop, ho', hperm⟩ := popFront_spec ho hx
  exact ⟨h', hpop, ho', Multiset.coe_eq_coe.mpr hperm⟩

/-- **One call refines one operation** of the priority queue. -/
theorem callHeap_refines {h : Heap T} {out : List T} {op : Op T} (ho : h.Ordered)
    (hok : PopsNonEmpty (h, out) op) :
    ∃ h' out', callHeap (h, out) op = some (h', out') ∧ h'.Ordered ∧
      Step (· < ·) (h.elements, out) op (h'.elements, out') := by
  cases op with
  | push t =>
    obtain ⟨h', hpush, ho', hheld⟩ := elements_push ho t
    refine ⟨h', out, by simp [callHeap, hpush], ho', ?_⟩
    rw [hheld]
    exact .push h.elements out t
  | pop =>
    obtain ⟨x, hx⟩ := front_of_nonempty hok
    obtain ⟨h', hpop, ho', hheld⟩ := elements_popFront ho hx
    refine ⟨h', out ++ [x], by simp [callHeap, hx, hpop], ho', ?_⟩
    -- what stays was there beside the front, which none is before
    have hmin : ∀ y ∈ h'.elements, ¬ y < x := by
      intro y hy
      have hmem : y ∈ h.elements := by
        rw [hheld]
        exact Multiset.mem_cons_of_mem hy
      exact front_min ho hx (Multiset.mem_coe.mp hmem)
    rw [hheld]
    exact .pop h'.elements out x hmin

/-! ## §3. Every use. -/

/-- A use that pops non-empty heaps only succeeds, and refines the operations in a row. -/
theorem run_refines {ops : List (Op T)} {h : Heap T} {out : List T} (ho : h.Ordered)
    (hok : Along callHeap PopsNonEmpty (h, out) ops) :
    ∃ h' out', run callHeap (h, out) ops = some (h', out') ∧ h'.Ordered ∧
      Steps (· < ·) (h.elements, out) ops (h'.elements, out') := by
  induction ops generalizing h out with
  | nil => exact ⟨h, out, rfl, ho, .nil _⟩
  | cons op ops ih =>
    obtain ⟨h₁, out₁, hcall, ho₁, hstep⟩ := callHeap_refines ho hok.1
    obtain ⟨h', out', hrun, ho', hsteps⟩ := ih ho₁ (hok.2 _ hcall)
    exact ⟨h', out', (run_cons_eq_some callHeap).mpr ⟨_, hcall, hrun⟩, ho', .cons hstep hsteps⟩

/-- `n` pops are possible from `n` elements on. -/
theorem along_pops {n : Nat} {h : Heap T} {out : List T} (ho : h.Ordered)
    (hn : n ≤ h.elements.card) : Along callHeap PopsNonEmpty (h, out) (List.replicate n .pop) := by
  induction n generalizing h out with
  | zero => trivial
  | succ n ih =>
    have hsize : h.elements.card = h.data.size := by simp [elements]
    have hne : h.empty = false := by
      rw [empty, Array.isEmpty_eq_false_iff]
      rintro hnil
      rw [hsize, hnil] at hn
      simp at hn
    refine ⟨hne, ?_⟩
    rintro ⟨h₁, out₁⟩ hcall
    obtain ⟨x, hx⟩ := front_of_nonempty hne
    obtain ⟨h', hpop, ho', hheld⟩ := elements_popFront ho hx
    obtain ⟨rfl, rfl⟩ : h' = h₁ ∧ out ++ [x] = out₁ := by simpa [callHeap, hx, hpop] using hcall
    refine ih ho' ?_
    rw [hheld, Multiset.card_cons] at hn
    omega

/-- **As many pops as pushes sort** what was pushed, and leave nothing. -/
theorem run_sorts (xs : List T) :
    ∃ h out, run callHeap ({}, []) (xs.map .push ++ List.replicate xs.length .pop)
        = some (h, out) ∧ h.empty = true ∧ out.Perm xs ∧ out.Pairwise fun x y => ¬ y < x := by
  have hok : Along callHeap PopsNonEmpty ({}, [])
      (xs.map .push ++ List.replicate xs.length .pop) := by
    refine Along.append.mpr ⟨along_pushes xs _, ?_⟩
    -- after the pushes there are as many elements as pops to come
    rintro ⟨h, out⟩ hrun
    obtain ⟨h', out', hrun', ho, hsteps⟩ :=
      run_refines ordered_empty (along_pushes xs ({}, []))
    obtain ⟨rfl, rfl⟩ : h' = h ∧ out' = out := by simpa [hrun] using hrun'.symm
    have hheld := (pushes_spec hsteps).1
    exact along_pops ho (by simp [hheld])
  obtain ⟨h, out, hrun, -, hsteps⟩ := run_refines ordered_empty hok
  obtain ⟨hnone, hperm, hsorted⟩ := sorts hsteps
  refine ⟨h, out, hrun, ?_, hperm, hsorted⟩
  rw [empty, Array.isEmpty_iff]
  simpa [elements] using hnone

/-- **`Heap<T>` refines a priority queue.**  In every use that calls `pop_front` on non-empty
heaps only: no `data.at` is out of bounds; after each call no element is before its parent, and
`front()` of a non-empty heap is a minimum; `push` adds exactly its argument and `pop_front`
removes exactly one occurrence of what `front()` returned; and as many pops as pushes sort. -/
theorem heap_refines (ops : List (Op T)) (hok : Along callHeap PopsNonEmpty ({}, []) ops) :
    (∀ pre, pre <+: ops → ∃ h out, run callHeap ({}, []) pre = some (h, out) ∧
      (∀ i x y, 0 < i → h.data[(i + 1) / 2 - 1]? = some x → h.data[i]? = some y → ¬ y < x) ∧
      (h.empty = false → ∃ x, h.front = some x ∧ x ∈ h.elements ∧ ∀ y ∈ h.elements, ¬ y < x) ∧
      Steps (· < ·) (0, []) pre (h.elements, out)) ∧
    (∀ pre op, pre ++ [op] <+: ops → ∃ h out h' out',
      run callHeap ({}, []) pre = some (h, out) ∧ callHeap (h, out) op = some (h', out') ∧
      match op with
      | .push t => h'.elements = t ::ₘ h.elements ∧ out' = out
      | .pop => ∃ x, h.front = some x ∧ h.elements = x ::ₘ h'.elements ∧ out' = out ++ [x]) ∧
    (∀ xs : List T, ∃ h out,
      run callHeap ({}, []) (xs.map .push ++ List.replicate xs.length .pop) = some (h, out) ∧
      h.empty = true ∧ out.Perm xs ∧ out.Pairwise fun x y => ¬ y < x) := by
  refine ⟨?_, ?_, run_sorts⟩
  · rintro pre ⟨post, rfl⟩
    obtain ⟨h, out, hrun, ho, hsteps⟩ := run_refines ordered_empty (Along.append.mp hok).1
    refine ⟨h, out, hrun, fun i x y hi hx hy => ho.parent_not_lt hi hx hy, fun hne => ?_, hsteps⟩
    obtain ⟨x, hx⟩ := front_of_nonempty hne
    refine ⟨x, hx, ?_, fun y hy => front_min ho hx (Multiset.mem_coe.mp hy)⟩
    rw [front_eq_head?] at hx
    exact Multiset.mem_coe.mpr (List.mem_of_head? hx)
  · rintro pre op ⟨post, rfl⟩
    rw [List.append_assoc] at hok
    obtain ⟨hpre, hrest⟩ := Along.append.mp hok
    obtain ⟨h, out, hrun, ho, -⟩ := run_refines ordered_empty hpre
    have hop := (hrest _ hrun).1
    cases op with
    | push t =>
      obtain ⟨h', hpush, -, hheld⟩ := elements_push ho t
      exact ⟨h, out, h', out, hrun, by simp [callHeap, hpush], hheld, rfl⟩
    | pop =>
      obtain ⟨x, hx⟩ := front_of_nonempty hop
      obtain ⟨h', hpop, -, hheld⟩ := elements_popFront ho hx
      exact ⟨h, out, h', out ++ [x], hrun, by simp [callHeap, hx, hpop], x, hx, hheld, rfl⟩

/-- Two equal elements among the pushed ones, and a pop before the last push. -/
theorem heap_refines_pair :
    ∃ h out, run callHeap ({}, []) [.push (3 : Int), .push 1, .pop, .push 3, .pop, .pop]
      = some (h, out) ∧ out = [1, 3, 3] := by
  have : IsStrictWeakOrder Int (· < ·) := isStrictWeakOrder_of_isOrderConnected
  have hok : Along callHeap PopsNonEmpty ({}, [])
      [.push (3 : Int), .push 1, .pop, .push 3, .pop, .pop] := by decide +kernel
  obtain ⟨h, out, hrun, -⟩ := (heap_refines _ hok).1 _ List.prefix_rfl
  refine ⟨h, out, hrun, ?_⟩
  have hout : (run callHeap ({}, []) [.push (3 : Int), .push 1, .pop, .push 3, .pop, .pop]).map
      Prod.snd = some [1, 3, 3] := by decide +kernel
  simpa [hrun] using hout

end Refinement

end ModernCppKafka.Queue.Heap
