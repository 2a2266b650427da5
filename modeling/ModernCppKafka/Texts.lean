/-
  ModernCppKafka.Texts — the explanatory strings of include/kafka/Types.h.

  They stand in log lines and in the texts of errors, where a reader has to tell from them which
  topics, partitions and offsets were meant.

  Main results:
    * `toString_topicPartitionOffsets_iff` — with no comma in a topic and no negative partition,
      different maps have different texts;
    * `toString_negative_partition`        — with a negative partition they may not.
-/
import ModernCppKafka.Lib.Decimal
import ModernCppKafka.Lib.Joined
import ModernCppKafka.Types

namespace ModernCppKafka

open ModernCppKafka.Lib.Decimal
open ModernCppKafka.Lib.Joined

/-! ## §1. The texts. -/

def Topics.toString (topics : Topics) : String :=
  topics.sort.foldl (appendUnlessEmpty ",") ""

def TopicPartition.toString (tp : TopicPartition) : String :=
  tp.first ++ "-" ++ ToString.toString tp.second.toInt

def TopicPartitions.toString (tps : TopicPartitions) : String :=
  (tps.sort.map TopicPartition.toString).foldl (appendUnlessEmpty ",") ""

/-- `TopicPartitionOffset`. -/
def TopicPartitionOffset.toString (tpo : TopicPartition × Offset) : String :=
  tpo.1.first ++ "-" ++ ToString.toString tpo.1.second.toInt ++ ":"
    ++ ToString.toString tpo.2.toInt

def TopicPartitionOffsets.toString (tpos : TopicPartitionOffsets) : String :=
  (tpos.toList.map TopicPartitionOffset.toString).foldl (appendUnlessEmpty ",") ""

/-! ## §2. Numbers. -/

theorem isDigit_of_mem_toString {n : ℕ} {c : Char} (h : c ∈ (ToString.toString n).toList) :
    c.isDigit = true := by
  rw [show ToString.toString n = Nat.repr n from rfl, Nat.toList_repr] at h
  exact Nat.isDigit_of_mem_toDigits (by norm_num) (by norm_num) h

/-- A number is printed with digits and a sign. -/
theorem mem_toString_int {z : ℤ} {c : Char} (h : c ∈ (ToString.toString z).toList) :
    c.isDigit = true ∨ c = '-' := by
  cases z with
  | ofNat n => exact Or.inl (isDigit_of_mem_toString h)
  | negSucc n =>
    rw [show ToString.toString (Int.negSucc n) = "-" ++ ToString.toString (n + 1) from rfl,
      String.toList_append, List.mem_append] at h
    cases h with
    | inl h => exact Or.inr (by simpa using h)
    | inr h => exact Or.inl (isDigit_of_mem_toString h)

/-- The sign only when it is negative. -/
theorem minus_not_mem_toString {z : ℤ} (hz : 0 ≤ z) : '-' ∉ (ToString.toString z).toList := by
  intro h
  cases z with
  | ofNat n => exact absurd (isDigit_of_mem_toString h) (by decide)
  | negSucc n => exact absurd hz (by simp)

theorem toString_int_injective {z z' : ℤ} (h : ToString.toString z = ToString.toString z') :
    z = z' := by
  have hparse := congrArg (fun s => parseInt s.toList) h
  simpa only [parseInt_toString, Option.some_inj] using hparse

/-! ## §3. Entries. -/

/-- A topic without a comma, and a partition that is not negative. -/
def TopicPartition.Plain (tp : TopicPartition) : Prop := ',' ∉ tp.first.toList ∧ 0 ≤ tp.second

instance (tp : TopicPartition) : Decidable tp.Plain := inferInstanceAs (Decidable (_ ∧ _))

theorem toString_topicPartition_injective {tp tp' : TopicPartition} (h : tp.Plain)
    (h' : tp'.Plain) (heq : tp.toString = tp'.toString) : tp = tp' := by
  have hchars : tp.first.toList ++ '-' :: (ToString.toString tp.second.toInt).toList
      = tp'.first.toList ++ '-' :: (ToString.toString tp'.second.toInt).toList := by
    simpa [TopicPartition.toString] using congrArg String.toList heq
  obtain ⟨hfirst, hsecond⟩ := append_cons_inj_last
    (minus_not_mem_toString (Int32.le_iff_toInt_le.mp h.2))
    (minus_not_mem_toString (Int32.le_iff_toInt_le.mp h'.2)) hchars
  have hpartition := toString_int_injective (String.toList_inj.mp hsecond)
  exact TopicPartition.ext (String.toList_inj.mp hfirst) (Int32.toInt_inj.mp hpartition)

theorem toString_topicPartitionOffset_injective {tpo tpo' : TopicPartition × Offset}
    (h : tpo.1.Plain) (h' : tpo'.1.Plain)
    (heq : TopicPartitionOffset.toString tpo = TopicPartitionOffset.toString tpo') :
    tpo = tpo' := by
  have hcolon (z : ℤ) : ':' ∉ (ToString.toString z).toList := by
    intro hin
    exact absurd (mem_toString_int hin) (by decide)
  have hchars : tpo.1.toString.toList ++ ':' :: (ToString.toString tpo.2.toInt).toList
      = tpo'.1.toString.toList ++ ':' :: (ToString.toString tpo'.2.toInt).toList := by
    simpa [TopicPartitionOffset.toString, TopicPartition.toString]
      using congrArg String.toList heq
  -- the last colon stands before the offset
  obtain ⟨hfirst, hsecond⟩ := append_cons_inj_last (hcolon _) (hcolon _) hchars
  have htp := toString_topicPartition_injective h h' (String.toList_inj.mp hfirst)
  have hoffset := toString_int_injective (String.toList_inj.mp hsecond)
  exact Prod.ext htp (Int64.toInt_inj.mp hoffset)

theorem comma_not_mem_toString (z : ℤ) : ',' ∉ (ToString.toString z).toList := by
  intro hin
  exact absurd (mem_toString_int hin) (by decide)

/-- An entry's text holds no comma, and is not empty. -/
theorem toString_topicPartition_plain {tp : TopicPartition} (h : tp.Plain) :
    ',' ∉ tp.toString.toList ∧ tp.toString ≠ "" := by
  constructor
  · simp only [TopicPartition.toString, String.toList_append, List.mem_append, not_or]
    exact ⟨⟨h.1, by decide⟩, comma_not_mem_toString _⟩
  · intro hempty
    have := congrArg String.toList hempty
    simp [TopicPartition.toString] at this

theorem toString_topicPartitionOffset_plain {tpo : TopicPartition × Offset} (h : tpo.1.Plain) :
    ',' ∉ (TopicPartitionOffset.toString tpo).toList ∧
      TopicPartitionOffset.toString tpo ≠ "" := by
  obtain ⟨hcomma, hne⟩ := toString_topicPartition_plain h
  have htext : TopicPartitionOffset.toString tpo =
      tpo.1.toString ++ ":" ++ ToString.toString tpo.2.toInt := rfl
  rw [htext]
  constructor
  · simp only [String.toList_append, List.mem_append, not_or]
    exact ⟨⟨hcomma, by decide⟩, comma_not_mem_toString _⟩
  · exact append_ne_empty (append_ne_empty hne)

/-! ## §4. Sets and maps. -/

/-- Topics are told apart when they hold no comma and are not empty. -/
theorem toString_topics_iff {topics topics' : Topics}
    (h : ∀ topic ∈ topics, ',' ∉ topic.toList ∧ topic ≠ "")
    (h' : ∀ topic ∈ topics', ',' ∉ topic.toList ∧ topic ≠ "") :
    Topics.toString topics = Topics.toString topics' ↔ topics = topics' := by
  refine ⟨fun heq => ?_, fun heq => by rw [heq]⟩
  have hlist : topics.sort = topics'.sort :=
    foldl_injective (f := id) (fun _ hp => hp) (fun _ _ _ _ heq => heq)
      (fun t ht => h t ((Finset.mem_sort _).mp ht)) (fun t ht => h' t ((Finset.mem_sort _).mp ht))
      (by simpa [Topics.toString] using heq)
  simpa using congrArg List.toFinset hlist

theorem toString_topicPartitions_iff {tps tps' : TopicPartitions} (h : ∀ tp ∈ tps, tp.Plain)
    (h' : ∀ tp ∈ tps', tp.Plain) :
    TopicPartitions.toString tps = TopicPartitions.toString tps' ↔ tps = tps' := by
  refine ⟨fun heq => ?_, fun heq => by rw [heq]⟩
  have hlist := foldl_injective (fun _ => toString_topicPartition_plain)
    (fun _ _ => toString_topicPartition_injective)
    (fun tp ht => h tp ((Finset.mem_sort _).mp ht))
    (fun tp ht => h' tp ((Finset.mem_sort _).mp ht)) heq
  simpa using congrArg List.toFinset hlist

/-- **The text of a map tells the map**: no two print the same. -/
theorem toString_topicPartitionOffsets_iff (tpos tpos' : TopicPartitionOffsets)
    (h : ∀ tpo ∈ tpos.toList, tpo.1.Plain) (h' : ∀ tpo ∈ tpos'.toList, tpo.1.Plain) :
    TopicPartitionOffsets.toString tpos = TopicPartitionOffsets.toString tpos' ↔
      tpos = tpos' := by
  refine ⟨fun heq => ?_, fun heq => by rw [heq]⟩
  have hlist := foldl_injective (P := fun tpo : TopicPartition × Offset => tpo.1.Plain)
    (fun _ => toString_topicPartitionOffset_plain)
    (fun _ _ => toString_topicPartitionOffset_injective) h h' heq
  exact Std.ExtTreeMap.toList_inj.mp hlist

/-- Offset 12 of a partition, or offset 2 with the 1 in the partition. -/
theorem toString_topicPartitionOffsets_digits :
    TopicPartitionOffsets.toString ((∅ : TopicPartitionOffsets).insert ⟨"a", 0⟩ 12) ≠
      TopicPartitionOffsets.toString ((∅ : TopicPartitionOffsets).insert ⟨"a", 1⟩ 2) := by
  have hplain (partition : Partition) (o : Offset) (hpos : 0 ≤ partition) :
      ∀ tpo ∈ ((∅ : TopicPartitionOffsets).insert ⟨"a", partition⟩ o).toList, tpo.1.Plain := by
    intro tpo htpo
    rw [Std.ExtTreeMap.mem_toList_iff_getElem?_eq_some, Std.ExtTreeMap.getElem?_insert] at htpo
    split at htpo
    next heq =>
      rw [← compare_eq_iff_eq.mp heq]
      exact ⟨show ',' ∉ "a".toList by decide, hpos⟩
    next => simp at htpo
  have hne : (∅ : TopicPartitionOffsets).insert ⟨"a", 0⟩ 12 ≠
      (∅ : TopicPartitionOffsets).insert ⟨"a", 1⟩ 2 := by
    intro heq
    have := congrArg (·[(⟨"a", 0⟩ : TopicPartition)]?) heq
    simp at this
  exact (toString_topicPartitionOffsets_iff _ _ (hplain 0 12 (by decide))
    (hplain 1 2 (by decide))).not.mpr hne

/-- The unknown partition of a topic prints as partition 1 of another. -/
theorem toString_negative_partition :
    TopicPartition.toString ⟨"a", -1⟩ = TopicPartition.toString ⟨"a-", 1⟩ := by
  decide

end ModernCppKafka
