/-
  ModernCppKafka.Consumer.OffsetsForTime — `KafkaConsumer::offsetsForTime`.

  The list that goes to librdkafka carries the timestamp in the entries' `offset` fields; librdkafka
  puts the offset it finds there, or leaves the field alone.  What still equals the timestamp
  afterwards is taken for unresolved and erased.

  Main results:
    * `createRkOfPartitions_eq`       — the entries of the list are the partitions, in order;
    * `getElem?_eraseTimestamp`       — erasing while iterating removes exactly the entries that
      equal the timestamp;
    * `offsetsForTime_exact_iff`      — exactly when the result is what was resolved;
    * `offset_at_epoch_is_lost`       — an offset that happens to equal the timestamp is not.
-/
import ModernCppKafka.Consumer.State
import ModernCppKafka.Timeout

namespace ModernCppKafka.Consumer

open ModernCppKafka.Lib.LastWriter

/-! ## §1. The code. -/

/-- `std::chrono::time_point<std::chrono::system_clock>`: nanoseconds since the epoch, as
libstdc++ counts them. -/
abbrev TimePoint := Int64

/-- `duration_cast<milliseconds>(timepoint.time_since_epoch()).count()`, which truncates towards
zero. -/
def millisecondsSinceEpoch (timepoint : TimePoint) : Int64 := timepoint / 1000000

/-- What `rd_kafka_offsets_for_times` does to the entries, one by one: an entry that is resolved
gets its offset, another keeps its field. -/
def overwrite (answers : List (Option Offset)) (rk_tpos : RkTopicPartitionList) :
    RkTopicPartitionList :=
  List.zipWith (fun answer rk_tp => { rk_tp with offset := answer.getD rk_tp.offset })
    answers rk_tpos

/-- Remove invalid results (which are not updated with an valid offset). -/
def eraseTimestamp (msSinceEpoch : Int64) (results : TopicPartitionOffsets) :
    TopicPartitionOffsets :=
  results.toList.foldl
    (fun results it => if it.2 = msSinceEpoch then results.erase it.1 else results) results

/-- The list and the timeout passed to `rd_kafka_offsets_for_times` (for an empty set it is not
called), and what the caller gets when librdkafka reports `respErr` and resolves `answers`. -/
def offsetsForTime (topicPartitions : TopicPartitions) (timepoint : TimePoint)
    (timeout : Milliseconds) (respErr : RespErr) (answers : List (Option Offset)) :
    Option (RkTopicPartitionList × Int32) × Except KafkaException TopicPartitionOffsets :=
  if topicPartitions = ∅ then (none, .ok ∅) else
  let msSinceEpoch := millisecondsSinceEpoch timepoint
  let rk_tpos := (createRkTopicPartitionListOfPartitions topicPartitions).map
    fun rk_tp => { rk_tp with offset := msSinceEpoch }
  (some (rk_tpos, castMsDurationToInt timeout), do
    throwIfWithError (Error.ofRespErr respErr)
    let results := getTopicPartitionOffsets (some (overwrite answers rk_tpos))
    return eraseTimestamp msSinceEpoch results)

/-! ## §2. The parts. -/

/-- **The list in order**: one entry for each partition, sorted. -/
theorem createRkOfPartitions_eq (tps : TopicPartitions) :
    createRkTopicPartitionListOfPartitions tps =
      tps.sort.map fun tp => ⟨c_str tp.first, tp.second, RD_KAFKA_OFFSET_INVALID⟩ := by
  have hsorted : tps.sort.Pairwise fun a b : TopicPartition => compare a b = .lt :=
    (Finset.sortedLT_sort tps).pairwise.imp compare_lt_iff_lt.mpr
  rw [createRkTopicPartitionListOfPartitions, createRkTopicPartitionList,
    toList_store_of_sorted _ _ hsorted, List.map_map]
  rfl

/-- The entries after the call. -/
def answered (tps : TopicPartitions) (resolved : TopicPartition → Option Offset)
    (msSinceEpoch : Int64) : RkTopicPartitionList :=
  tps.sort.map fun tp => ⟨c_str tp.first, tp.second, (resolved tp).getD msSinceEpoch⟩

theorem overwrite_eq (tps : TopicPartitions) (resolved : TopicPartition → Option Offset)
    (msSinceEpoch : Int64) :
    overwrite (tps.sort.map resolved) ((createRkTopicPartitionListOfPartitions tps).map
      fun rk_tp => { rk_tp with offset := msSinceEpoch }) = answered tps resolved msSinceEpoch := by
  rw [createRkOfPartitions_eq, List.map_map, overwrite, List.zipWith_map, List.zipWith_self]
  rfl

theorem getElem?_foldl_erase (ms : Int64) (l : List (TopicPartition × Offset))
    (m : TopicPartitionOffsets) (tp : TopicPartition) :
    (l.foldl (fun m it => if it.2 = ms then m.erase it.1 else m) m)[tp]? =
      if (tp, ms) ∈ l then none else m[tp]? := by
  induction l generalizing m with
  | nil => simp
  | cons it l ih =>
    rw [List.foldl_cons, ih]
    by_cases hl : (tp, ms) ∈ l
    · simp [hl]
    · by_cases hit : it = (tp, ms)
      · subst hit
        simp [hl]
      · have hcons : (tp, ms) ∉ it :: l := by
          rw [List.mem_cons, not_or]
          exact ⟨fun h => hit h.symm, hl⟩
        rw [if_neg hl, if_neg hcons]
        split
        · next hms =>
          -- another partition's entry
          rw [Std.ExtTreeMap.getElem?_erase, if_neg]
          intro hcmp
          exact hit (Prod.ext (compare_eq_iff_eq.mp hcmp) hms)
        · rfl

/-- **Erasing while iterating** leaves the entries that differ from the timestamp. -/
theorem getElem?_eraseTimestamp (ms : Int64) (results : TopicPartitionOffsets)
    (tp : TopicPartition) :
    (eraseTimestamp ms results)[tp]? = results[tp]?.filter (· ≠ ms) := by
  rw [eraseTimestamp, getElem?_foldl_erase]
  simp only [Std.ExtTreeMap.mem_toList_iff_getElem?_eq_some]
  cases results[tp]? with
  | none => simp
  | some o =>
    by_cases h : o = ms <;> simp [h, Option.filter_some]

/-! ## §3. The result. -/

/-- What an entry made for the partition is called by in librdkafka's list. -/
def listedAs (tp : TopicPartition) : TopicPartition := ⟨(c_str tp.first).val, tp.second⟩

theorem listedAs_of_nulFree {tp : TopicPartition} (h : NulFree tp.first) : listedAs tp = tp := by
  rw [listedAs, c_str_of_nulFree h]

theorem nulFree_listedAs (tp : TopicPartition) : NulFree (listedAs tp).first := (c_str tp.first).2

/-- A cut name is a prefix, so it does not come after the name itself. -/
theorem listedAs_le (tp : TopicPartition) : listedAs tp ≤ tp := by
  have hle : (c_str tp.first).val ≤ tp.first := by
    rw [String.le_iff_toList_le]
    show (String.ofList (tp.first.toList.takeWhile (· ≠ NUL))).toList ≤ tp.first.toList
    rw [String.toList_ofList]
    exact not_lt.mp (List.IsPrefix.le (List.takeWhile_prefix _))
  show toLex ((c_str tp.first).val, tp.second) ≤ toLex (tp.first, tp.second)
  rw [Prod.Lex.toLex_le_toLex]
  rcases hle.lt_or_eq with hlt | heq
  · exact Or.inl hlt
  · exact Or.inr ⟨heq, le_rfl⟩

/-- What the caller looks up. -/
theorem getElem?_results (tps : TopicPartitions) (resolved : TopicPartition → Option Offset)
    (ms : Int64) (tp : TopicPartition) :
    (eraseTimestamp ms (getTopicPartitionOffsets (some (answered tps resolved ms))))[tp]? =
      ((lastFor listedAs tp tps.sort).map fun tp' => (resolved tp').getD ms).filter (· ≠ ms) := by
  rw [getElem?_eraseTimestamp, getTopicPartitionOffsets, getElem?_store,
    Std.ExtTreeMap.getElem?_empty, Option.or_none, Option.getD_some, answered, lastFor_map,
    Option.map_map]
  rfl

/-- An offset found is that of the last partition listed under the name. -/
theorem getElem?_results_eq_some {tps : TopicPartitions}
    {resolved : TopicPartition → Option Offset} {ms : Int64} {tp : TopicPartition} {o : Offset} :
    (eraseTimestamp ms (getTopicPartitionOffsets (some (answered tps resolved ms))))[tp]? = some o ↔
      o ≠ ms ∧ ∃ tp', lastFor listedAs tp tps.sort = some tp' ∧ resolved tp' = some o := by
  rw [getElem?_results, Option.filter_eq_some_iff, Option.map_eq_some_iff]
  constructor
  · rintro ⟨⟨tp', hlast, ho⟩, hne⟩
    have hne' : o ≠ ms := by simpa using hne
    refine ⟨hne', tp', hlast, ?_⟩
    cases hres : resolved tp' with
    | none =>
      rw [hres] at ho
      exact absurd ho.symm hne'
    | some o' =>
      rw [hres] at ho
      exact congrArg some ho
  · rintro ⟨hne, tp', hlast, hres⟩
    exact ⟨⟨tp', hlast, by rw [hres]; rfl⟩, by simpa using hne⟩

/-- The result is the map of what was resolved. -/
def ReturnsResolved (tps : TopicPartitions) (resolved : TopicPartition → Option Offset)
    (result : Except KafkaException TopicPartitionOffsets) : Prop :=
  ∃ offsets, result = .ok offsets ∧ ∀ tp, offsets[tp]? = if tp ∈ tps then resolved tp else none

/-- A resolved offset comes through: it differs from the timestamp, and librdkafka's list names
the partition as the caller does, and no other one so. -/
def ComesThrough (tps : TopicPartitions) (ms : Int64) (tp : TopicPartition) (o : Offset) : Prop :=
  o ≠ ms ∧ NulFree tp.first ∧ ∀ tp' ∈ tps, listedAs tp' = tp → tp' = tp

/-- Without an overall error the caller gets what differs from the timestamp. -/
theorem offsetsForTime_of_ne_empty {tps : TopicPartitions} (hne : tps ≠ ∅) (timepoint : TimePoint)
    (timeout : Milliseconds) (resolved : TopicPartition → Option Offset) :
    (offsetsForTime tps timepoint timeout RD_KAFKA_RESP_ERR_NO_ERROR (tps.sort.map resolved)).2 =
      .ok (eraseTimestamp (millisecondsSinceEpoch timepoint) (getTopicPartitionOffsets
        (some (answered tps resolved (millisecondsSinceEpoch timepoint))))) := by
  rw [offsetsForTime, if_neg hne, ← overwrite_eq]
  rfl

/-- What comes through is in the result. -/
theorem ComesThrough.lastFor_eq {tps : TopicPartitions} {ms : Int64} {tp : TopicPartition}
    {o : Offset} (h : ComesThrough tps ms tp o) (htp : tp ∈ tps) :
    lastFor listedAs tp tps.sort = some tp := by
  obtain ⟨-, hfree, huniq⟩ := h
  have hsome := lastFor_isSome_of_mem listedAs ((Finset.mem_sort (· ≤ ·)).mpr htp)
  rw [listedAs_of_nulFree hfree] at hsome
  obtain ⟨tp', hlast⟩ := Option.isSome_iff_exists.mp hsome
  have hmem := (Finset.mem_sort (· ≤ ·)).mp (mem_of_lastFor hlast)
  rw [hlast, huniq tp' hmem (key_of_lastFor hlast)]

/-- **Exactly what was resolved**, for every set, timepoint and answer: if and only if each
resolved offset comes through. -/
theorem offsetsForTime_exact_iff (tps : TopicPartitions) (timepoint : TimePoint)
    (timeout : Milliseconds) (resolved : TopicPartition → Option Offset) :
    ReturnsResolved tps resolved (offsetsForTime tps timepoint timeout RD_KAFKA_RESP_ERR_NO_ERROR
      (tps.sort.map resolved)).2 ↔
      ∀ tp ∈ tps, ∀ o, resolved tp = some o →
        ComesThrough tps (millisecondsSinceEpoch timepoint) tp o := by
  rcases eq_or_ne tps ∅ with rfl | hne
  · simp [ReturnsResolved, offsetsForTime]
  rw [offsetsForTime_of_ne_empty hne]
  set ms := millisecondsSinceEpoch timepoint
  constructor
  · rintro ⟨offsets, hok, hget⟩ tp htp o hres
    obtain rfl := Except.ok.inj hok
    -- whatever was resolved is found, under a name that is a C string
    have hfound : ∀ tp ∈ tps, ∀ o, resolved tp = some o → NulFree tp.first ∧ o ≠ ms ∧
        ∃ tp', lastFor listedAs tp tps.sort = some tp' ∧ resolved tp' = some o := by
      intro tp htp o hres
      have hin := hget tp
      rw [if_pos htp, hres, getElem?_results_eq_some] at hin
      obtain ⟨hms, tp', hlast, hres'⟩ := hin
      refine ⟨?_, hms, tp', hlast, hres'⟩
      rw [← key_of_lastFor hlast]
      exact nulFree_listedAs tp'
    obtain ⟨hfree, hms, last, hlast, hres'⟩ := hfound tp htp o hres
    refine ⟨hms, hfree, fun tp' htp' hkey => ?_⟩
    -- the last partition of that name is `tp` itself, and cut names only come before
    have hlast_mem := (Finset.mem_sort (· ≤ ·)).mp (mem_of_lastFor hlast)
    have hself : last = tp := by
      rw [← key_of_lastFor hlast, listedAs_of_nulFree (hfound last hlast_mem o hres').1]
    rw [hself] at hlast
    rcases rel_lastFor (Finset.sortedLT_sort tps).pairwise hlast
      ((Finset.mem_sort (· ≤ ·)).mpr htp') hkey with heq | hlt
    · exact heq
    · exact absurd (hkey ▸ listedAs_le tp') (not_le_of_gt hlt)
  · intro h
    refine ⟨_, rfl, fun tp => Option.ext fun o => ?_⟩
    rw [getElem?_results_eq_some]
    constructor
    · rintro ⟨-, tp', hlast, hres⟩
      have htp' := (Finset.mem_sort (· ≤ ·)).mp (mem_of_lastFor hlast)
      have hself : tp' = tp := by
        rw [← key_of_lastFor hlast, listedAs_of_nulFree (h tp' htp' o hres).2.1]
      rw [← hself, if_pos htp', hres]
    · intro hin
      obtain ⟨htp, hres⟩ := Option.ite_none_right_eq_some.mp hin
      exact ⟨(h tp htp o hres).1, tp, (h tp htp o hres).lastFor_eq htp, hres⟩

/-- At the epoch the timestamp is 0, and a partition whose first record is the answer is lost. -/
theorem offset_at_epoch_is_lost :
    ¬ ReturnsResolved {⟨"t", 0⟩} (fun _ => some 0)
      (offsetsForTime {⟨"t", 0⟩} 0 1000 RD_KAFKA_RESP_ERR_NO_ERROR [some 0]).2 := by
  have hanswers : [some (0 : Offset)] =
      (Finset.sort ({⟨"t", 0⟩} : TopicPartitions)).map fun _ => some 0 := by
    rw [Finset.sort_singleton, List.map_singleton]
  rw [hanswers, offsetsForTime_of_ne_empty (Finset.singleton_ne_empty _)]
  rintro ⟨offsets, hok, hget⟩
  obtain rfl := Except.ok.inj hok
  have hin := hget ⟨"t", 0⟩
  rw [if_pos (Finset.mem_singleton.mpr rfl), getElem?_results_eq_some] at hin
  exact hin.1 (by decide)

end ModernCppKafka.Consumer
