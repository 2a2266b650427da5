/-
  ModernCppKafka.Lib.LastWriter — maps filled from a list, where the last entry of a key wins.

  `lastFor key k l` is the last element of `l` with key `k`.  A map that stores the elements of
  `l` in turn holds, under `k`, the value of `lastFor key k l` (`getElem?_store`); one that keeps
  what it has holds that of the first (`getElem?_storeNew`).
-/
import Mathlib.Data.List.Basic
import Mathlib.Data.List.Pairwise
import Std.Data.ExtTreeMap

namespace ModernCppKafka.Lib.LastWriter

variable {α κ β : Type*}

/-! ## §1. The last element of a key. -/

section LastFor

variable [DecidableEq κ] (key : α → κ) (k : κ)

/-- The last element of `l` whose key is `k`. -/
def lastFor (l : List α) : Option α := (l.filter (key · = k)).getLast?

@[simp] theorem lastFor_nil : lastFor key k [] = none := rfl

@[simp] theorem lastFor_append (l l' : List α) :
    lastFor key k (l ++ l') = (lastFor key k l').or (lastFor key k l) := by
  simp [lastFor, List.getLast?_append]

theorem lastFor_cons (x : α) (l : List α) :
    lastFor key k (x :: l) = (lastFor key k l).or (if key x = k then some x else none) := by
  rw [show x :: l = [x] ++ l from rfl, lastFor_append]
  congr 1
  by_cases h : key x = k <;> simp [lastFor, h]

variable {key k} {l : List α}

theorem lastFor_eq_none : lastFor key k l = none ↔ ∀ x ∈ l, key x ≠ k := by
  simp [lastFor]

theorem key_of_lastFor {x : α} (h : lastFor key k l = some x) : key x = k := by
  simpa using (List.mem_filter.mp (List.mem_of_getLast? h)).2

theorem mem_of_lastFor {x : α} (h : lastFor key k l = some x) : x ∈ l :=
  (List.mem_filter.mp (List.mem_of_getLast? h)).1

variable (key) in
theorem lastFor_isSome_of_mem {x : α} (hx : x ∈ l) : (lastFor key (key x) l).isSome := by
  rw [Option.isSome_iff_ne_none]
  intro h
  exact lastFor_eq_none.mp h x hx rfl

/-- Nothing of the key comes after the last one. -/
theorem rel_lastFor {r : α → α → Prop} (h : l.Pairwise r) {x y : α}
    (hx : lastFor key k l = some x) (hy : y ∈ l) (hk : key y = k) : y = x ∨ r y x := by
  obtain ⟨init, hinit⟩ := List.getLast?_eq_some_iff.mp hx
  have hy' : y ∈ l.filter (key · = k) := List.mem_filter.mpr ⟨hy, by simpa using hk⟩
  have hsorted : (l.filter (key · = k)).Pairwise r := h.filter _
  rw [hinit] at hy' hsorted
  rcases List.mem_append.mp hy' with hmem | hlast
  · exact Or.inr ((List.pairwise_append.mp hsorted).2.2 y hmem x (List.mem_singleton.mpr rfl))
  · exact Or.inl (List.mem_singleton.mp hlast)

theorem lastFor_map {γ : Type*} (f : γ → α) (l : List γ) :
    lastFor key k (l.map f) = (lastFor (key ∘ f) k l).map f := by
  rw [lastFor, lastFor, List.filter_map, List.getLast?_map]
  rfl

end LastFor

/-- Sorted lists with the same elements are equal. -/
theorem eq_of_pairwise_of_mem_iff {r : α → α → Prop} (hr : ∀ a b, r a b → ¬ r b a) {l l' : List α}
    (h : l.Pairwise r) (h' : l'.Pairwise r) (hmem : ∀ x, x ∈ l ↔ x ∈ l') : l = l' := by
  have hnodup : ∀ {l : List α}, l.Pairwise r → l.Nodup := by
    intro l hl
    refine hl.imp fun {a b} hab heq => ?_
    subst heq
    exact hr a a hab hab
  refine ((List.perm_ext_iff_of_nodup (hnodup h) (hnodup h')).mpr hmem).eq_of_pairwise ?_ h h'
  intro a b _ _ hab hba
  exact absurd hba (hr a b hab)

/-! ## §2. Storing a list in a map. -/

section Store

variable {cmp : κ → κ → Ordering} [Std.TransCmp cmp] [Std.LawfulEqCmp cmp]

/-- Store the elements of `l` in turn. -/
def store (key : α → κ) (val : α → β) (l : List α) (m : Std.ExtTreeMap κ β cmp) :
    Std.ExtTreeMap κ β cmp :=
  l.foldl (fun m x => m.insert (key x) (val x)) m

variable (key : α → κ) (val : α → β) (m : Std.ExtTreeMap κ β cmp)

/-- **The last entry of a key wins**, and keys the list does not name keep what they had. -/
theorem getElem?_store [DecidableEq κ] (l : List α) (k : κ) :
    (store key val l m)[k]? = ((lastFor key k l).map val).or m[k]? := by
  induction l generalizing m with
  | nil => simp [store]
  | cons x l ih =>
    rw [store, List.foldl_cons]
    refine (ih (m.insert (key x) (val x))).trans ?_
    rw [lastFor_cons, Std.ExtTreeMap.getElem?_insert]
    cases lastFor key k l with
    | some y => simp
    | none => by_cases hx : key x = k <;> simp [hx]

/-- Store the elements of `l` in turn, unless their key is there already. -/
def storeNew (key : α → κ) (val : α → β) (l : List α) (m : Std.ExtTreeMap κ β cmp) :
    Std.ExtTreeMap κ β cmp :=
  l.foldl (fun m x => m.insertIfNew (key x) (val x)) m

/-- **What is there first stays**: what the map had, or else the first entry of the key. -/
theorem getElem?_storeNew [DecidableEq κ] (l : List α) (k : κ) :
    (storeNew key val l m)[k]? = m[k]?.or ((l.find? (key · = k)).map val) := by
  induction l generalizing m with
  | nil => simp [storeNew]
  | cons x l ih =>
    rw [storeNew, List.foldl_cons]
    refine (ih (m.insertIfNew (key x) (val x))).trans ?_
    rw [Std.ExtTreeMap.getElem?_insertIfNew, List.find?_cons]
    by_cases hx : key x = k
    · cases hk : m[k]? with
      | none => simp [hx, Std.ExtTreeMap.mem_iff_isSome_getElem?, hk]
      | some v => simp [hx, Std.ExtTreeMap.mem_iff_isSome_getElem?, hk]
    · simp [hx]

/-- A list sorted by its keys is the map's own order. -/
theorem toList_store_of_sorted {l : List α} (h : l.Pairwise fun a b => cmp (key a) (key b) = .lt) :
    (store key val l (∅ : Std.ExtTreeMap κ β cmp)).toList = l.map fun x => (key x, val x) := by
  classical
  have hasymm : ∀ a b : κ, cmp a b = .lt → ¬ cmp b a = .lt := by
    intro a b hlt hgt
    rw [Std.OrientedCmp.gt_of_lt hlt] at hgt
    cases hgt
  -- an element is the only one of its key
  have hne : l.Pairwise fun a b => key a ≠ key b := by
    refine h.imp fun {a b} hlt heq => ?_
    exact hasymm _ _ hlt (by rwa [heq] at hlt ⊢)
  have hlast : ∀ {x : α}, x ∈ l → lastFor key (key x) l = some x := by
    intro x hx
    obtain ⟨y, hy⟩ := Option.isSome_iff_exists.mp (lastFor_isSome_of_mem key hx)
    by_contra hxy
    have hyx : y ≠ x := fun heq => hxy (heq ▸ hy)
    have : Std.Symm fun a b => key a ≠ key b := ⟨fun _ _ h => h.symm⟩
    exact hne.forall (mem_of_lastFor hy) hx hyx (key_of_lastFor hy)
  refine eq_of_pairwise_of_mem_iff (fun a b => hasymm a.1 b.1)
    Std.ExtTreeMap.ordered_keys_toList (List.pairwise_map.mpr h) ?_
  rintro ⟨k, v⟩
  rw [Std.ExtTreeMap.mem_toList_iff_getElem?_eq_some, getElem?_store,
    Std.ExtTreeMap.getElem?_empty, Option.or_none, Option.map_eq_some_iff, List.mem_map]
  constructor
  · rintro ⟨x, hx, rfl⟩
    exact ⟨x, mem_of_lastFor hx, by rw [key_of_lastFor hx]⟩
  · rintro ⟨x, hx, hkv⟩
    obtain ⟨rfl, rfl⟩ := Prod.mk.inj hkv
    exact ⟨x, hlast hx, rfl⟩

/-- Storing what is left of a map's entries leaves the rest out of the map. -/
theorem store_toList_filter (f : κ → β → Bool) :
    store Prod.fst Prod.snd (m.toList.filter fun kv => f kv.1 kv.2) ∅ = m.filter f := by
  classical
  apply Std.ExtTreeMap.ext_getElem?
  intro k
  rw [getElem?_store, Std.ExtTreeMap.getElem?_empty, Option.or_none,
    Std.ExtTreeMap.getElem?_filter']
  cases hlast : lastFor Prod.fst k (m.toList.filter fun kv => f kv.1 kv.2) with
  | some kv =>
    obtain ⟨hmem, hf⟩ := List.mem_filter.mp (mem_of_lastFor hlast)
    obtain rfl := key_of_lastFor hlast
    rw [Std.ExtTreeMap.mem_toList_iff_getElem?_eq_some.mp hmem, Option.filter_some, if_pos hf]
    rfl
  | none =>
    cases hk : m[k]? with
    | none => rfl
    | some v =>
      rw [Option.filter_some, if_neg]
      · rfl
      intro hf
      have hmem : (k, v) ∈ m.toList.filter fun kv => f kv.1 kv.2 :=
        List.mem_filter.mpr ⟨Std.ExtTreeMap.mem_toList_iff_getElem?_eq_some.mpr hk, hf⟩
      exact lastFor_eq_none.mp hlast _ hmem rfl

end Store

end ModernCppKafka.Lib.LastWriter
