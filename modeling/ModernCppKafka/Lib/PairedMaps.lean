/-
  ModernCppKafka.Lib.PairedMaps — two maps with the same keys, gone through side by side.

  The entries of such maps come in the same order, so what is made of each entry in turn is the
  same for both maps exactly when it is key by key.

  The rules:
    * `forall₂_toList_iff`     — a relation between the entries, list by list or key by key;
    * `map_toList_eq`          — entries that are shown alike make the same list;
    * `flatMap_toList_eq_iff`  — the same for what is written about each entry, when the lengths
      agree.
-/
import Mathlib.Data.List.Forall2
import ModernCppKafka.Lib.LastWriter

namespace ModernCppKafka.Lib.PairedMaps

open ModernCppKafka.Lib.LastWriter

variable {κ β γ δ : Type*}

/-! ## §1. Lists with the same keys. -/

/-- Entries are paired by position or by key, which comes to the same. -/
theorem forall₂_iff_of_keys_eq {R : κ × β → κ × γ → Prop} {l : List (κ × β)} {l' : List (κ × γ)}
    (hkeys : l.map Prod.fst = l'.map Prod.fst) (hnodup : (l.map Prod.fst).Nodup) :
    List.Forall₂ R l l' ↔ ∀ k v v', (k, v) ∈ l → (k, v') ∈ l' → R (k, v) (k, v') := by
  induction l generalizing l' with
  | nil =>
    obtain rfl := List.map_eq_nil_iff.mp hkeys.symm
    simp
  | cons kv l ih =>
    cases l' with
    | nil => cases hkeys
    | cons kv' l' =>
      obtain ⟨k, v⟩ := kv
      obtain ⟨k', v'⟩ := kv'
      obtain ⟨hk, hkeys'⟩ := List.cons.inj hkeys
      obtain rfl : k = k' := hk
      obtain ⟨hnew, hnodup'⟩ := List.nodup_cons.mp hnodup
      rw [List.forall₂_cons, ih hkeys' hnodup']
      constructor
      · rintro ⟨hhead, htail⟩ k₀ v₀ v₀' hv hv'
        rcases List.mem_cons.mp hv with heq | hmem <;> rcases List.mem_cons.mp hv' with heq' | hmem'
        · cases heq
          cases heq'
          exact hhead
        · cases heq
          exact absurd (hkeys' ▸ List.mem_map_of_mem hmem') hnew
        · cases heq'
          exact absurd (List.mem_map_of_mem hmem) hnew
        · exact htail k₀ v₀ v₀' hmem hmem'
      · intro h
        exact ⟨h k v v' List.mem_cons_self List.mem_cons_self, fun k₀ v₀ v₀' hv hv' =>
          h k₀ v₀ v₀' (List.mem_cons_of_mem _ hv) (List.mem_cons_of_mem _ hv')⟩

/-- Texts put together are the same when their parts are, if these are as long as each other. -/
theorem flatMap_eq_iff_forall₂ {α : Type*} {β : Type*} {f : α → List δ} {g : β → List δ}
    {l : List α} {l' : List β}
    (hlength : List.Forall₂ (fun a b => (f a).length = (g b).length) l l') :
    l.flatMap f = l'.flatMap g ↔ List.Forall₂ (fun a b => f a = g b) l l' := by
  induction hlength with
  | nil => simp
  | cons hab _ ih =>
    rw [List.flatMap_cons, List.flatMap_cons, List.forall₂_cons, ← ih]
    exact ⟨fun h => List.append_inj h hab, fun h => by rw [h.1, h.2]⟩

/-! ## §2. Maps with the same keys. -/

section Maps

variable {cmp : κ → κ → Ordering} [Std.TransCmp cmp] [Std.LawfulEqCmp cmp]

/-- The maps have the same keys. -/
def SameKeys (m : Std.ExtTreeMap κ β cmp) (m' : Std.ExtTreeMap κ γ cmp) : Prop :=
  ∀ k : κ, m[k]?.isSome = m'[k]?.isSome

variable {m : Std.ExtTreeMap κ β cmp} {m' : Std.ExtTreeMap κ γ cmp}

/-- And list them in the same order. -/
theorem SameKeys.keys_eq (h : SameKeys m m') : m.keys = m'.keys := by
  have hlt : ∀ a b, cmp a b = .lt → ¬ cmp b a = .lt := by
    intro a b hab hba
    have hswap : cmp a b = (cmp b a).swap := Std.OrientedCmp.eq_swap
    rw [hswap, hba] at hab
    cases hab
  refine eq_of_pairwise_of_mem_iff hlt Std.ExtTreeMap.ordered_keys Std.ExtTreeMap.ordered_keys
    fun k => ?_
  rw [Std.ExtTreeMap.mem_keys, Std.ExtTreeMap.mem_keys, Std.ExtTreeMap.mem_iff_isSome_getElem?,
    Std.ExtTreeMap.mem_iff_isSome_getElem?, h k]

/-- **Side by side** is key by key. -/
theorem SameKeys.forall₂_toList_iff (h : SameKeys m m') {R : κ × β → κ × γ → Prop} :
    List.Forall₂ R m.toList m'.toList ↔
      ∀ k v v', m[k]? = some v → m'[k]? = some v' → R (k, v) (k, v') := by
  have hkeys : m.toList.map Prod.fst = m'.toList.map Prod.fst := by
    rw [Std.ExtTreeMap.map_fst_toList_eq_keys, Std.ExtTreeMap.map_fst_toList_eq_keys, h.keys_eq]
  rw [forall₂_iff_of_keys_eq hkeys
    (Std.ExtTreeMap.map_fst_toList_eq_keys (t := m) ▸ Std.ExtTreeMap.nodup_keys)]
  simp only [Std.ExtTreeMap.mem_toList_iff_getElem?_eq_some]

theorem SameKeys.map_toList_eq (h : SameKeys m m') {f : κ × β → δ} {g : κ × γ → δ}
    (hfg : ∀ k v v', m[k]? = some v → m'[k]? = some v' → f (k, v) = g (k, v')) :
    m.toList.map f = m'.toList.map g := by
  rw [← List.forall₂_eq_eq_eq, List.forall₂_map_left_iff, List.forall₂_map_right_iff]
  exact h.forall₂_toList_iff.mpr hfg

/-- **Written about in turn**, entry by entry. -/
theorem SameKeys.flatMap_toList_eq_iff (h : SameKeys m m') {f : κ × β → List δ}
    {g : κ × γ → List δ}
    (hlength : ∀ k v v', m[k]? = some v → m'[k]? = some v' →
      (f (k, v)).length = (g (k, v')).length) :
    m.toList.flatMap f = m'.toList.flatMap g ↔
      ∀ k v v', m[k]? = some v → m'[k]? = some v' → f (k, v) = g (k, v') := by
  rw [flatMap_eq_iff_forall₂ (h.forall₂_toList_iff.mpr hlength), h.forall₂_toList_iff]

end Maps

end ModernCppKafka.Lib.PairedMaps
