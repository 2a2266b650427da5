/-
  ModernCppKafka.Types — the plain data types of include/kafka/Types.h.

  `Offset` and `Partition` are the fixed-width integers the header names, so `+ 1` wraps at
  `2^63` exactly where the machine's does.  A `std::string` is a `String`, each `Char` of it
  standing for one C `char`, a byte.  `std::set` is a `Finset` and `std::map` is a tree map with
  extensional equality, both ordered by the key's `<` (topic first, then partition, as
  `std::pair` compares).
-/
import Mathlib.Data.Finset.Sort
import Mathlib.Data.Prod.Lex
import Mathlib.Data.String.Basic
import Mathlib.Order.RelClasses
import Mathlib.Tactic
import Std.Data.ExtTreeMap

namespace ModernCppKafka

/-! ## §1. The order on the machine integers. -/

instance int64LinearOrder : LinearOrder Int64 where
  le_refl := by intro a; grind
  le_trans := by intro a b c; grind
  lt_iff_le_not_ge := by intro a b; grind
  le_antisymm := by intro a b; grind
  le_total := by intro a b; grind
  toDecidableLE := inferInstance
  toDecidableLT := inferInstance
  toDecidableEq := inferInstance
  compare_eq_compareOfLessAndEq := by intro a b; rfl

instance int32LinearOrder : LinearOrder Int32 where
  le_refl := by intro a; grind
  le_trans := by intro a b c; grind
  lt_iff_le_not_ge := by intro a b; grind
  le_antisymm := by intro a b; grind
  le_total := by intro a b; grind
  toDecidableLE := inferInstance
  toDecidableLT := inferInstance
  toDecidableEq := inferInstance
  compare_eq_compareOfLessAndEq := by intro a b; rfl

/-! ## §2. Topics, partitions, offsets. -/

/-- `using Topic = std::string`. -/
abbrev Topic := String

/-- `using Partition = std::int32_t`. -/
abbrev Partition := Int32

/-- `using Offset = std::int64_t`. -/
abbrev Offset := Int64

/-- `using TopicPartition = std::pair<Topic, Partition>`. -/
@[ext] structure TopicPartition where
  first : Topic
  second : Partition
  deriving DecidableEq, Repr

/-- `std::pair` compares its members in turn. -/
instance : LinearOrder TopicPartition :=
  LinearOrder.lift' (fun tp => toLex (tp.first, tp.second)) (by
    rintro ⟨t, p⟩ ⟨t', p'⟩ h
    simpa using h)

instance : Std.LawfulEqOrd TopicPartition where
  compare_self := compare_eq_iff_eq.mpr rfl
  eq_of_compare := compare_eq_iff_eq.mp

-- named once, for the maps and the sorted iterations below
instance TopicPartition.transCmp : Std.TransCmp (@compare TopicPartition _) := inferInstance

instance Topic.isTrans_le : @IsTrans Topic (· ≤ ·) := inferInstance

instance Topic.antisymm_le : @Std.Antisymm Topic (· ≤ ·) := inferInstance

instance TopicPartition.isTrans_le : @IsTrans TopicPartition (· ≤ ·) := inferInstance

instance TopicPartition.antisymm_le : @Std.Antisymm TopicPartition (· ≤ ·) := inferInstance

/-- `using Topics = std::set<Topic>`. -/
abbrev Topics := Finset Topic

/-- `using TopicPartitions = std::set<TopicPartition>`. -/
abbrev TopicPartitions := Finset TopicPartition

/-- `using TopicPartitionOffsets = std::map<TopicPartition, Offset>`. -/
abbrev TopicPartitionOffsets := Std.ExtTreeMap TopicPartition Offset compare

/-! ## §3. Counting on from an offset. -/

/-- Below the largest 64-bit value the successor does not wrap. -/
theorem Offset.toInt_add_one {o : Offset} (h : o < Int64.maxValue) :
    (o + 1).toInt = o.toInt + 1 := by
  have hlt : o.toInt < 9223372036854775807 := Int64.lt_iff_toInt_lt.mp h
  have hge : -9223372036854775808 ≤ o.toInt := Int64.le_toInt o
  rw [Int64.toInt_add, show (1 : Int64).toInt = 1 from rfl]
  exact Int.bmod_eq_of_le (by norm_num; omega) (by norm_num; omega)

theorem Offset.lt_add_one_iff {o e : Offset} (h : e < Int64.maxValue) : o < e + 1 ↔ o ≤ e := by
  rw [Int64.lt_iff_toInt_lt, Int64.le_iff_toInt_le, Offset.toInt_add_one h]
  omega

theorem Offset.add_one_le {o e : Offset} (h : e < o) : e + 1 ≤ o := by
  have hmax : e < Int64.maxValue := h.trans_le (Int64.le_maxValue o)
  have hlt : e.toInt < o.toInt := Int64.lt_iff_toInt_lt.mp h
  rw [Int64.le_iff_toInt_le, Offset.toInt_add_one hmax]
  omega

/-- Even where it wraps, the successor differs from its argument. -/
theorem Offset.add_one_ne (o : Offset) : o + 1 ≠ o := by
  grind

end ModernCppKafka
