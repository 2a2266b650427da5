/-
  ModernCppKafka.RdKafkaHelper.RoundTrip — nothing is lost between a container and a list.

  The three encoders of include/kafka/RdKafkaHelper.h all end in the map's, which appends the
  entries in key order; the decoders walk the list and let the last element of a key win.

  Main results:
    * `getTopicPartitionOffsets_createRk` — a map of NUL-free topics survives the way there and
      back;
    * `normalForm_createRk`               — a list comes back sorted, each key once, with the
      offset of its last occurrence;
    * `createRk_lossless`                 — both, with the sets of partitions and of topics.
-/
import ModernCppKafka.RdKafkaHelper

namespace ModernCppKafka

open ModernCppKafka.Lib.LastWriter

/-! ## §1. From a map to a list and back. -/

/-- What a list is read as, key by key. -/
theorem getElem?_getTopicPartitionOffsets (l : Option RkTopicPartitionList) (tp : TopicPartition) :
    (getTopicPartitionOffsets l)[tp]? =
      (lastFor RkTopicPartition.key tp (l.getD [])).map RkTopicPartition.offset := by
  rw [getTopicPartitionOffsets, getElem?_store, Std.ExtTreeMap.getElem?_empty, Option.or_none]

/-- **There and back** for a map, with every offset it holds. -/
theorem getTopicPartitionOffsets_createRk {tpos : TopicPartitionOffsets} (h : NulFreeTopics tpos) :
    getTopicPartitionOffsets (some (createRkTopicPartitionList tpos)) = tpos := by
  apply Std.ExtTreeMap.ext_getElem?
  intro tp
  rw [getElem?_getTopicPartitionOffsets, Option.getD_some]
  cases hlast : lastFor RkTopicPartition.key tp (createRkTopicPartitionList tpos) with
  | some e =>
    have he := (mem_createRk_of_nulFree h).mp (mem_of_lastFor hlast)
    rw [key_of_lastFor hlast] at he
    exact he.symm
  | none =>
    rw [Option.map_none]
    refine (Std.ExtTreeMap.getElem?_eq_none ?_).symm
    intro hin
    -- an entry of the map would have been appended under its own key
    obtain ⟨o, ho⟩ := Option.isSome_iff_exists.mp (Std.ExtTreeMap.mem_iff_isSome_getElem?.mp hin)
    have he := (mem_createRk_of_nulFree (e := ⟨⟨tp.first, h tp hin⟩, tp.second, o⟩) h).mpr ho
    exact lastFor_eq_none.mp hlast _ he rfl

/-! ## §2. From a list to a map and back. -/

/-- `r` is `l` sorted by topic, then partition, with each key once: the element of `r` under a key
is the last one of `l`. -/
structure NormalForm (l r : RkTopicPartitionList) : Prop where
  sorted : r.Pairwise fun e e' => e.key < e'.key
  last : ∀ e, e ∈ r ↔ lastFor RkTopicPartition.key e.key l = some e

/-- Two elements of one key and one offset are the same. -/
theorem RkTopicPartition.ext_key {e e' : RkTopicPartition} (hkey : e.key = e'.key)
    (hoffset : e.offset = e'.offset) : e = e' := by
  rw [RkTopicPartition.key, RkTopicPartition.key, TopicPartition.mk.injEq] at hkey
  exact RkTopicPartition.ext (Subtype.ext hkey.1) hkey.2 hoffset

/-- Topics that come out of a list are C strings. -/
theorem nulFreeTopics_getTopicPartitionOffsets (l : Option RkTopicPartitionList) :
    NulFreeTopics (getTopicPartitionOffsets l) := by
  intro tp htp
  rw [Std.ExtTreeMap.mem_iff_isSome_getElem?, getElem?_getTopicPartitionOffsets,
    Option.isSome_map] at htp
  obtain ⟨e, he⟩ := Option.isSome_iff_exists.mp htp
  rw [← key_of_lastFor he]
  exact e.topic.2

/-- The entries are appended in key order. -/
theorem sorted_createRk {tpos : TopicPartitionOffsets} (h : NulFreeTopics tpos) :
    (createRkTopicPartitionList tpos).Pairwise fun e e' => e.key < e'.key := by
  have hkey : ∀ tp_o ∈ tpos.toList,
      (⟨c_str tp_o.1.first, tp_o.1.second, tp_o.2⟩ : RkTopicPartition).key = tp_o.1 := by
    intro tp_o htp
    have hin : tp_o.1 ∈ tpos := by
      rw [Std.ExtTreeMap.mem_iff_isSome_getElem?,
        Std.ExtTreeMap.mem_toList_iff_getElem?_eq_some.mp htp]
      rfl
    rw [RkTopicPartition.key, c_str_of_nulFree (h _ hin)]
  rw [createRkTopicPartitionList, List.pairwise_map]
  refine Std.ExtTreeMap.ordered_keys_toList.imp_of_mem ?_
  intro a b ha hb hlt
  rw [hkey a ha, hkey b hb]
  exact compare_lt_iff_lt.mp hlt

/-- **Sorted, each key once, the last occurrence wins**: for every list, the null pointer read as
the empty one. -/
theorem normalForm_createRk (l : Option RkTopicPartitionList) :
    NormalForm (l.getD []) (createRkTopicPartitionList (getTopicPartitionOffsets l)) where
  sorted := sorted_createRk (nulFreeTopics_getTopicPartitionOffsets l)
  last := by
    intro e
    rw [mem_createRk_of_nulFree (nulFreeTopics_getTopicPartitionOffsets l),
      getElem?_getTopicPartitionOffsets, Option.map_eq_some_iff]
    constructor
    · rintro ⟨x, hx, hoffset⟩
      rw [hx, RkTopicPartition.ext_key (key_of_lastFor hx) hoffset]
    · intro he
      exact ⟨e, he, rfl⟩

/-- Strictly sorted lists with the same elements are equal, so a list has one normal form. -/
theorem NormalForm.unique {l r r' : RkTopicPartitionList} (h : NormalForm l r)
    (h' : NormalForm l r') : r = r' :=
  eq_of_pairwise_of_mem_iff (fun _ _ => lt_asymm) h.sorted h'.sorted
    fun e => (h.last e).trans (h'.last e).symm

/-! ## §3. All of it. -/

/-- **Conversion is lossless**, both ways and for the three encoders. -/
theorem createRk_lossless :
    (∀ tpos : TopicPartitionOffsets, NulFreeTopics tpos →
      getTopicPartitionOffsets (some (createRkTopicPartitionList tpos)) = tpos) ∧
    (∀ tps : TopicPartitions, (∀ tp ∈ tps, NulFree tp.first) →
      getTopicPartitions (some (createRkTopicPartitionListOfPartitions tps)) = tps) ∧
    (∀ topics : Topics, (∀ topic ∈ topics, NulFree topic) →
      getTopics (some (createRkTopicPartitionListOfTopics topics)) = topics) ∧
    (∀ (l : Option RkTopicPartitionList) (r : RkTopicPartitionList),
      createRkTopicPartitionList (getTopicPartitionOffsets l) = r ↔ NormalForm (l.getD []) r) := by
  refine ⟨fun _ h => getTopicPartitionOffsets_createRk h, fun _ h => getTopicPartitions_createRk h,
    fun _ h => getTopics_createRk h, fun l r => ⟨?_, ?_⟩⟩
  · rintro rfl
    exact normalForm_createRk l
  · intro h
    exact (normalForm_createRk l).unique h

/-- Two partitions of one topic, their topic, and the map a list names them by. -/
theorem createRk_lossless_two :
    getTopicPartitionOffsets (some (createRkTopicPartitionList
      (getTopicPartitionOffsets (some [⟨c_str "t", 1, 7⟩, ⟨c_str "t", 0, 5⟩])))) =
        getTopicPartitionOffsets (some [⟨c_str "t", 1, 7⟩, ⟨c_str "t", 0, 5⟩]) ∧
    getTopicPartitions (some (createRkTopicPartitionListOfPartitions {⟨"t", 0⟩, ⟨"t", 1⟩})) =
      {⟨"t", 0⟩, ⟨"t", 1⟩} ∧
    getTopics (some (createRkTopicPartitionListOfTopics {"t"})) = {"t"} :=
  ⟨createRk_lossless.1 _ (nulFreeTopics_getTopicPartitionOffsets _),
    createRk_lossless.2.1 _ (by simp; decide), createRk_lossless.2.2.1 _ (by simp; decide)⟩

end ModernCppKafka
