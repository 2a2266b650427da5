/-
  ModernCppKafka.Metrics.IntRange — the integers `getInt` leaves out.

  `getInt` returns `std::int64_t` values, but tests and reads them as `int`: an integer that does
  not fit 32 bits is dropped (`timestamp_dropped`).

  So is one hidden behind an earlier member of the same name, or whose name holds a NUL.  A
  document librdkafka makes has neither; there the range is all that counts.

  Main results:
    * `chosen_first_iff`    — a key leads to the first member of its name;
    * `getInt_complete_iff` — no integer is dropped exactly when all are in range and none hidden.
-/
import ModernCppKafka.Metrics.Query

namespace ModernCppKafka.Metrics

open ModernCppKafka.Lib.PatternPath

/-! ## §1. What may be dropped. -/

/-- For every matching path that ends in a 64-bit integer there is an entry with that value. -/
def Complete (doc : Json) (keys : KeysType) : Prop :=
  ∀ is names (n : Int64), Path (Takes Eq) keys doc is names (.int n.toInt) →
    ∃ results, KafkaMetrics.getInt ⟨doc⟩ keys = some (.ok results) ∧
      (wildcardNames keys names, n) ∈ results

/-- A step to a member at a wildcard, or else to the first that has the name of the key's C
string. -/
def TakesFirst (key : String) (v : Json) (i : ℕ) (name : String) (c : Json) : Prop :=
  ∃ members, v = .object members ∧ members[i]? = some (name, c) ∧
    (key = WILDCARD ∨ CStrOf key name ∧ ∀ j < i, ∀ member ∈ members[j]?, member.1 ≠ name)

/-- Some path through first members, and the wildcards, ends in the integer under the same
names. -/
def Seen (doc : Json) (keys : KeysType) (names : List String) (n : Int64) : Prop :=
  ∃ is names', Path TakesFirst keys doc is names' (.int n.toInt) ∧
    cut (wildcardNames keys names') = wildcardNames keys names

/-! ## §2. First members. -/

theorem Json.getElem?_positions (members : List Member) (j : ℕ) :
    (Json.object members).positions[j]? = members[j]?.map (j, ·) := by
  simp [positions, Json.members, List.getElem?_zipIdx, Function.comp_def]

/-- **A key leads to the first member of its name**, or to all at a wildcard. -/
theorem chosen_first_iff {key : String} {v : Json} {i : ℕ} {name : String} {c : Json} :
    (i, name, c) ∈ chosen key v ↔ TakesFirst key v i name c := by
  by_cases hkey : key = WILDCARD
  · rw [chosen, if_pos hkey, Json.mem_positions]
    simp [TakesFirst, hkey]
  · cases v with
    | object members =>
      have hget := Json.getElem?_positions members
      rw [chosen, if_neg hkey, Option.mem_toList, List.find?_eq_some_iff_getElem]
      constructor
      · rintro ⟨hname, k, hk, hck, hfirst⟩
        obtain ⟨member, hmember, heq⟩ := Option.map_eq_some_iff.mp
          ((hget k).symm.trans (List.getElem?_eq_some_iff.mpr ⟨hk, hck⟩))
        obtain ⟨rfl, rfl⟩ := Prod.mk.inj heq
        -- an earlier member of the name would have been found instead
        have hcstr : CStrOf key name := by simpa [CStrOf, eq_comm] using hname
        refine ⟨members, rfl, hmember, .inr ⟨hcstr, fun j hj member hmem hsame => ?_⟩⟩
        have hj' : (Json.object members).positions[j]? = some (j, member) := by
          rw [hget, hmem]
          rfl
        have hnot := hfirst j hj
        rw [(List.getElem?_eq_some_iff.mp hj').2] at hnot
        simp [hsame, hcstr.symm] at hnot
      · rintro ⟨members', hobj, hi, hmatch⟩
        obtain rfl := Json.object.inj hobj
        obtain ⟨hcstr, hfirst⟩ := hmatch.resolve_left hkey
        have hi' : (Json.object members).positions[i]? = some (i, name, c) := by
          rw [hget, hi]
          rfl
        obtain ⟨hlt, hgeti⟩ := List.getElem?_eq_some_iff.mp hi'
        refine ⟨by simpa [CStrOf, eq_comm] using hcstr, i, hlt, hgeti, fun j hj => ?_⟩
        obtain ⟨member, hmember, heq⟩ := Option.map_eq_some_iff.mp
          ((hget j).symm.trans (List.getElem?_eq_getElem (hj.trans hlt)))
        rw [← heq]
        simpa [show (c_str key).val = name from hcstr] using hfirst j hj member hmember
    | _ => simp [chosen, hkey, Json.positions, Json.members, TakesFirst]

/-! ## §3. What is dropped. -/

/-- An integer is found exactly when it is in range and seen. -/
theorem mem_entries_int {doc : Json} {keys : KeysType} {names : List String} {n : Int64} :
    (wildcardNames keys names, n) ∈ entries .int64_t keys doc ↔
      (Json.int n.toInt).IsInt = true ∧ Seen doc keys names n := by
  have hvalue (v : Json) : value .int64_t v = some n ↔
      v = .int n.toInt ∧ (Json.int n.toInt).IsInt = true := by
    cases v with
    | int m =>
      rw [value_int, Json.int.injEq]
      constructor
      · rintro ⟨h, rfl⟩
        exact ⟨rfl, h⟩
      · rintro ⟨rfl, h⟩
        exact ⟨h, rfl⟩
    | _ => simp [value, isType, Json.IsInt]
  rw [mem_entries]
  simp only [hvalue, chosen_first_iff, Seen]
  constructor
  · rintro ⟨is, names', c, hpath, ⟨rfl, hint⟩, hnames⟩
    exact ⟨hint, is, names', hpath, hnames⟩
  · rintro ⟨hint, is, names', hpath, hnames⟩
    exact ⟨is, names', _, hpath, ⟨rfl, hint⟩, hnames⟩

/-- In a plain document whatever matches is seen. -/
theorem seen_of_plain {doc : Json} (h : doc.Plain) {keys : KeysType} {is : List ℕ}
    {names : List String} {n : Int64} (hpath : Path (Takes Eq) keys doc is names (.int n.toInt)) :
    Seen doc keys names n := by
  refine ⟨is, names, ?_, cut_of_nulFree fun name hname => ?_⟩
  · -- a name without a NUL is its own C string
    refine hpath.imp (fun key v i name c hv ht => ?_) h
    obtain ⟨hname, hc⟩ := ht.plain hv
    refine ⟨chosen_first_iff.mp ((chosen_iff hv key i name c).mpr ?_), hc⟩
    obtain ⟨members, hobj, hi, hkey⟩ := ht
    refine ⟨members, hobj, hi, hkey.imp_right ?_⟩
    rintro rfl
    exact c_str_of_nulFree hname
  · have hnames := (hpath.all (fun _ _ _ _ _ hv ht => ht.plain hv) h).1
    exact hnames name (mem_of_mem_wildcardNames hname)

/-- **No 64-bit integer is dropped if and only if** each at the end of a matching path fits an
`int` and is seen; in a plain document, if and only if each fits an `int`. -/
theorem getInt_complete_iff {doc : Json} (hobj : doc.IsObject = true) {keys : KeysType}
    (hkeys : ValidKeys keys) :
    (Complete doc keys ↔ ∀ is names (n : Int64), Path (Takes Eq) keys doc is names (.int n.toInt) →
      (Json.int n.toInt).IsInt = true ∧ Seen doc keys names n) ∧
    (doc.Plain → (Complete doc keys ↔ ∀ is names (n : Int64),
      Path (Takes Eq) keys doc is names (.int n.toInt) → (Json.int n.toInt).IsInt = true)) := by
  have hget : KafkaMetrics.getInt ⟨doc⟩ keys = some (.ok (entries .int64_t keys doc)) :=
    get_eq hobj hkeys
  have hiff : Complete doc keys ↔ ∀ is names (n : Int64),
      Path (Takes Eq) keys doc is names (.int n.toInt) →
        (Json.int n.toInt).IsInt = true ∧ Seen doc keys names n := by
    refine forall_congr' fun is => forall_congr' fun names => forall_congr' fun n =>
      imp_congr_right fun _ => ?_
    rw [← mem_entries_int, hget]
    constructor
    · rintro ⟨results, heq, hmem⟩
      obtain rfl := Except.ok.inj (Option.some.inj heq)
      exact hmem
    · exact fun hmem => ⟨_, rfl, hmem⟩
  refine ⟨hiff, fun hplain => hiff.trans ?_⟩
  refine forall_congr' fun is => forall_congr' fun names => forall_congr' fun n =>
    forall_congr' fun hpath => ?_
  exact and_iff_left (seen_of_plain hplain hpath)

/-- Bytes received, few as yet. -/
theorem getInt_complete_iff_rx : Complete (.object [("rx_bytes", .int 1079)]) ["rx_bytes"] := by
  have hplain : (Json.object [("rx_bytes", .int 1079)]).Plain :=
    .object (by simp) (by decide) (by simpa using .int _)
  refine ((getInt_complete_iff rfl ⟨by decide, by decide, by decide⟩).2 hplain).mpr ?_
  intro is names n hpath
  obtain ⟨i, name, c, is', names', ⟨members, hobj, hi, -⟩, hrest, -, -⟩ := path_cons.mp hpath
  obtain ⟨-, -, hc⟩ := path_nil.mp hrest
  obtain rfl := Json.object.inj hobj
  have hmem : (name, c) = ("rx_bytes", Json.int 1079) := by
    simpa using List.mem_of_getElem? hi
  rw [hc, (Prod.mk.inj hmem).2]
  decide

/-- The timestamp of a metrics message does not fit. -/
theorem timestamp_dropped :
    ¬ ∀ (doc : Json) (keys : KeysType), doc.IsObject = true → ValidKeys keys →
      Complete doc keys := by
  intro h
  have hpath : Path (Takes Eq) ["ts"] (.object [("ts", .int 2055955903075)]) [0] ["ts"]
      (.int (2055955903075 : Int64).toInt) :=
    .cons ⟨_, rfl, rfl, .inr rfl⟩ (.nil _)
  obtain ⟨results, hget, hmem⟩ := h _ _ rfl ⟨by decide, by decide, by decide⟩ _ _ _ hpath
  have hanswer : KafkaMetrics.getInt ⟨.object [("ts", .int 2055955903075)]⟩ ["ts"]
      = some (.ok []) := by rfl
  obtain rfl : [] = results := Except.ok.inj (Option.some.inj (hanswer.symm.trans hget))
  exact absurd hmem List.not_mem_nil

end ModernCppKafka.Metrics
