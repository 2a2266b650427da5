/-
  ModernCppKafka.RdKafkaHelper — the conversions of include/kafka/RdKafkaHelper.h.

  librdkafka takes and returns arrays of `rd_kafka_topic_partition_t`, whose topic is a C string:
  it ends at the first NUL, so a `CString` holds none, and handing a `std::string` over by
  `c_str()` cuts it there.

  Main results:
    * `mem_createRkTopicPartitionList` — an element of the list made from a map is an entry of
      the map with its topic cut;
    * `getTopicPartitions_createRk`    — NUL-free topics survive the way there and back.
-/
import Mathlib.Data.List.TakeWhile
import ModernCppKafka.Lib.LastWriter
import ModernCppKafka.Types

namespace ModernCppKafka

open ModernCppKafka.Lib.LastWriter

/-! ## §1. C strings. -/

/-- The character that ends a C string. -/
def NUL : Char := Char.ofNat 0

/-- No character of the string is NUL. -/
def NulFree (s : String) : Prop := NUL ∉ s.toList

instance (s : String) : Decidable (NulFree s) := inferInstanceAs (Decidable (_ ∉ _))

/-- `const char*`: what is read up to the first NUL. -/
abbrev CString := { s : String // NulFree s }

/-- `std::string::c_str()`, as a function taking a `const char*` reads it. -/
def c_str (s : String) : CString :=
  ⟨String.ofList (s.toList.takeWhile (· ≠ NUL)), by
    rw [NulFree, String.toList_ofList]
    intro h
    have := List.mem_takeWhile_imp h
    simp at this⟩

theorem c_str_of_nulFree {s : String} (h : NulFree s) : (c_str s).val = s := by
  have hall : ∀ c ∈ s.toList, decide (c ≠ NUL) = true := by
    intro c hc
    simpa using fun heq : c = NUL => h (heq ▸ hc)
  change String.ofList (s.toList.takeWhile (· ≠ NUL)) = s
  rw [List.takeWhile_eq_self_iff.mpr hall, String.ofList_toList]

theorem nulFree_append {s t : String} (hs : NulFree s) (ht : NulFree t) : NulFree (s ++ t) := by
  rw [NulFree, String.toList_append, List.mem_append, not_or]
  exact ⟨hs, ht⟩

@[simp] theorem c_str_val (s : CString) : c_str s.val = s := Subtype.ext (c_str_of_nulFree s.2)

/-! ## §2. librdkafka's lists. -/

/-- `RD_KAFKA_OFFSET_INVALID`. -/
def RD_KAFKA_OFFSET_INVALID : Offset := -1001

/-- `RD_KAFKA_PARTITION_UA`. -/
def RD_KAFKA_PARTITION_UA : Partition := -1

/-- `rd_kafka_topic_partition_t`, as far as these conversions use it. -/
@[ext] structure RkTopicPartition where
  topic : CString
  partition : Partition
  offset : Offset
  deriving DecidableEq

/-- `rd_kafka_topic_partition_list_t`; a null pointer is `none`. -/
abbrev RkTopicPartitionList := List RkTopicPartition

/-- The key an element of a list is stored under. -/
def RkTopicPartition.key (e : RkTopicPartition) : TopicPartition := ⟨e.topic.val, e.partition⟩

def getTopicPartitionOffsets (rk_tpos : Option RkTopicPartitionList) : TopicPartitionOffsets :=
  store RkTopicPartition.key RkTopicPartition.offset (rk_tpos.getD []) ∅

def getTopics (rk_topics : Option RkTopicPartitionList) : Topics :=
  (rk_topics.getD []).foldl (fun result e => insert e.topic.val result) ∅

def getTopicPartitions (rk_tpos : Option RkTopicPartitionList) : TopicPartitions :=
  (rk_tpos.getD []).foldl (fun result e => insert e.key result) ∅

/-- `rd_kafka_topic_partition_list_add` for every entry of the map, in key order. -/
def createRkTopicPartitionList (tpos : TopicPartitionOffsets) : RkTopicPartitionList :=
  tpos.toList.map fun tp_o => ⟨c_str tp_o.1.first, tp_o.1.second, tp_o.2⟩

/-- The overload for `TopicPartitions`. -/
def createRkTopicPartitionListOfPartitions (tps : TopicPartitions) : RkTopicPartitionList :=
  createRkTopicPartitionList
    (store (fun tp => ⟨tp.first, tp.second⟩) (fun _ => RD_KAFKA_OFFSET_INVALID) tps.sort ∅)

/-- The overload for `Topics`. -/
def createRkTopicPartitionListOfTopics (topics : Topics) : RkTopicPartitionList :=
  createRkTopicPartitionList
    (store (fun topic => ⟨topic, RD_KAFKA_PARTITION_UA⟩) (fun _ => RD_KAFKA_OFFSET_INVALID)
      topics.sort ∅)

/-! ## §3. What the lists hold. -/

/-- Every topic of the map is free of NULs. -/
def NulFreeTopics (tpos : TopicPartitionOffsets) : Prop := ∀ tp ∈ tpos, NulFree tp.first

theorem mem_createRkTopicPartitionList {tpos : TopicPartitionOffsets} {e : RkTopicPartition} :
    e ∈ createRkTopicPartitionList tpos ↔
      ∃ tp : TopicPartition, tpos[tp]? = some e.offset ∧
        c_str tp.first = e.topic ∧ tp.second = e.partition := by
  simp only [createRkTopicPartitionList, List.mem_map, Prod.exists,
    Std.ExtTreeMap.mem_toList_iff_getElem?_eq_some]
  constructor
  · rintro ⟨tp, o, htp, rfl⟩
    exact ⟨tp, htp, rfl, rfl⟩
  · rintro ⟨tp, htp, htopic, hpart⟩
    exact ⟨tp, e.offset, htp, by rw [htopic, hpart]⟩

/-- An element of the list made from a map of NUL-free topics is an entry of the map. -/
theorem mem_createRk_of_nulFree {tpos : TopicPartitionOffsets} (h : NulFreeTopics tpos)
    {e : RkTopicPartition} :
    e ∈ createRkTopicPartitionList tpos ↔ tpos[e.key]? = some e.offset := by
  rw [mem_createRkTopicPartitionList]
  constructor
  · rintro ⟨tp, htp, htopic, hpart⟩
    have hin : tp ∈ tpos := Std.ExtTreeMap.mem_iff_isSome_getElem?.mpr (by simp [htp])
    rwa [RkTopicPartition.key, ← htopic, ← hpart, c_str_of_nulFree (h tp hin)]
  · intro htp
    exact ⟨e.key, htp, c_str_val e.topic, rfl⟩

/-- The set that the loop over a list collects, each element under its key. -/
theorem mem_foldl_insert {α : Type*} [DecidableEq α] {key : RkTopicPartition → α} {x : α}
    {l : RkTopicPartitionList} {acc : Finset α} :
    x ∈ l.foldl (fun result e => insert (key e) result) acc ↔ x ∈ acc ∨ ∃ e ∈ l, key e = x := by
  induction l generalizing acc with
  | nil => simp
  | cons e l ih =>
    rw [List.foldl_cons, ih, Finset.mem_insert, List.exists_mem_cons_iff]
    tauto

theorem mem_getTopicPartitions {l : RkTopicPartitionList} {tp : TopicPartition} :
    tp ∈ getTopicPartitions (some l) ↔ ∃ e ∈ l, e.key = tp := by
  rw [getTopicPartitions, mem_foldl_insert]
  simp

theorem mem_getTopics {l : RkTopicPartitionList} {topic : Topic} :
    topic ∈ getTopics (some l) ↔ ∃ e ∈ l, e.topic.val = topic := by
  rw [getTopics, mem_foldl_insert]
  simp

/-- The list made from a set, each member under its key. -/
theorem mem_createRk_store {α : Type*} [LinearOrder α] (key : α → TopicPartition) (s : Finset α)
    (o : Offset) {e : RkTopicPartition} :
    e ∈ createRkTopicPartitionList (store key (fun _ => o) s.sort ∅) ↔
      ∃ x ∈ s, e = ⟨c_str (key x).first, (key x).second, o⟩ := by
  have hget : ∀ tp : TopicPartition,
      (store key (fun _ => o) s.sort ∅ : TopicPartitionOffsets)[tp]? =
        (lastFor key tp s.sort).map fun _ => o := by
    intro tp
    rw [getElem?_store, Std.ExtTreeMap.getElem?_empty, Option.or_none]
  rw [mem_createRkTopicPartitionList]
  constructor
  · rintro ⟨tp, htp, htopic, hpart⟩
    obtain ⟨x, hx, ho⟩ := Option.map_eq_some_iff.mp ((hget tp).symm.trans htp)
    obtain rfl : key x = tp := key_of_lastFor hx
    refine ⟨x, (Finset.mem_sort (· ≤ ·)).mp (mem_of_lastFor hx), ?_⟩
    rw [htopic, hpart, ho]
  · rintro ⟨x, hx, rfl⟩
    obtain ⟨y, hy⟩ := Option.isSome_iff_exists.mp
      (lastFor_isSome_of_mem key ((Finset.mem_sort (· ≤ ·)).mpr hx))
    exact ⟨key x, by rw [hget, hy, Option.map_some], rfl, rfl⟩

/-- **There and back**: librdkafka's list of NUL-free partitions names exactly these. -/
theorem getTopicPartitions_createRk {tps : TopicPartitions} (h : ∀ tp ∈ tps, NulFree tp.first) :
    getTopicPartitions (some (createRkTopicPartitionListOfPartitions tps)) = tps := by
  ext tp
  rw [mem_getTopicPartitions, createRkTopicPartitionListOfPartitions]
  constructor
  · rintro ⟨e, he, rfl⟩
    obtain ⟨tp, htp, rfl⟩ := (mem_createRk_store _ tps _).mp he
    rwa [RkTopicPartition.key, c_str_of_nulFree (h tp htp)]
  · intro htp
    refine ⟨_, (mem_createRk_store _ tps _).mpr ⟨tp, htp, rfl⟩, ?_⟩
    rw [RkTopicPartition.key, c_str_of_nulFree (h tp htp)]

/-- The same for topics. -/
theorem getTopics_createRk {topics : Topics} (h : ∀ topic ∈ topics, NulFree topic) :
    getTopics (some (createRkTopicPartitionListOfTopics topics)) = topics := by
  ext topic
  rw [mem_getTopics, createRkTopicPartitionListOfTopics]
  constructor
  · rintro ⟨e, he, rfl⟩
    obtain ⟨topic, htopic, rfl⟩ := (mem_createRk_store _ topics _).mp he
    rwa [c_str_of_nulFree (h topic htopic)]
  · intro htopic
    exact ⟨_, (mem_createRk_store _ topics _).mpr ⟨topic, htopic, rfl⟩,
      c_str_of_nulFree (h topic htopic)⟩

end ModernCppKafka
