/-
  ModernCppKafka.Lib.Custody — tokens handed in, held, and handed out once each.

  A token is either taken into custody or turned away when it is offered.  `Ledger` says that
  what was taken is, token by token, held or handed out, and that no token is offered twice.
  The rules give its upkeep by what a system does with its tokens: `take`, `refuse`, `shift`
  (among the places they are held in) and `hand`.
-/
import Mathlib.Data.List.Nodup
import Mathlib.Data.List.Perm.Basic

namespace ModernCppKafka.Lib.Custody

variable {α : Type*}

/-- `held` may name the tokens of several places in any order. -/
structure Ledger (taken refused held handed : List α) : Prop where
  perm : taken.Perm (handed ++ held)
  nodup : (taken ++ refused).Nodup

namespace Ledger

variable {taken refused held held' handed : List α} {m : α}

/-! ## §1. Upkeep. -/

theorem empty : Ledger ([] : List α) [] [] [] := ⟨.nil, List.nodup_nil⟩

theorem take (h : Ledger taken refused held handed) (hm : m ∉ taken ++ refused) :
    Ledger (taken ++ [m]) refused (held ++ [m]) handed where
  perm := by
    rw [← List.append_assoc]
    exact h.perm.append_right [m]
  nodup := by
    have hcons : (m :: (taken ++ refused)).Nodup := List.nodup_cons.mpr ⟨hm, h.nodup⟩
    rw [List.append_assoc]
    exact (List.perm_middle.nodup_iff).mpr hcons

theorem refuse (h : Ledger taken refused held handed) (hm : m ∉ taken ++ refused) :
    Ledger taken (refused ++ [m]) held handed where
  perm := h.perm
  nodup := by
    rw [← List.append_assoc]
    exact List.nodup_append.mpr ⟨h.nodup, List.nodup_singleton m, fun a ha b hb => by
      obtain rfl : b = m := by simpa using hb
      exact fun hab => hm (hab ▸ ha)⟩

theorem shift (h : Ledger taken refused held handed) (hp : held.Perm held') :
    Ledger taken refused held' handed :=
  ⟨h.perm.trans (hp.append_left handed), h.nodup⟩

theorem hand (out : List α) (h : Ledger taken refused (out ++ held) handed) :
    Ledger taken refused held (handed ++ out) :=
  ⟨by rw [List.append_assoc]; exact h.perm, h.nodup⟩

/-! ## §2. What it gives. -/

/-- No token is handed out twice. -/
theorem handed_nodup (h : Ledger taken refused held handed) : handed.Nodup :=
  ((h.perm.nodup_iff.mp h.nodup.of_append_left)).of_append_left

theorem mem_taken (h : Ledger taken refused held handed) (hm : m ∈ handed) : m ∈ taken :=
  h.perm.mem_iff.mpr (List.mem_append_left held hm)

/-- A token turned away is never handed out. -/
theorem not_mem_handed (h : Ledger taken refused held handed) (hm : m ∈ refused) :
    m ∉ handed := fun hin =>
  List.disjoint_of_nodup_append h.nodup (h.mem_taken hin) hm

/-- Once nothing is held every token taken has been handed out, once. -/
theorem mem_handed [DecidableEq α] (h : Ledger taken refused [] handed) (hm : m ∈ taken) :
    handed.count m = 1 := by
  have hin : m ∈ handed := by simpa using h.perm.mem_iff.mp hm
  exact List.count_eq_one_of_mem h.handed_nodup hin

end Ledger

end ModernCppKafka.Lib.Custody
