/-
  ModernCppKafka.Metrics.Query — a query returns the matching paths.

  A matching path goes through objects only, takes any member at a wildcard and the member of the
  key's name elsewhere, and ends in a value of the type asked for.  In a document whose names are
  unique in each object and free of NULs, the first member of a name is the only one.

  Keys are looked up by `c_str()`: one that holds a NUL matches the name before it
  (`nul_key_answered`).

  Main results:
    * `chosen_iff`  — the members a key leads to are those it matches;
    * `get_answers` — a query returns one entry for each matching path, in document order.
-/
import ModernCppKafka.Metrics.KafkaMetrics

namespace ModernCppKafka.Metrics

open ModernCppKafka.Lib.PatternPath

/-! ## §1. Matching paths. -/

/-- A step from `v` to the member `c` at position `i`, of a name that is `same` as the key. -/
def Takes (same : String → String → Prop) (key : String) (v : Json) (i : ℕ) (name : String)
    (c : Json) : Prop :=
  ∃ members, v = .object members ∧ members[i]? = some (name, c) ∧
    (key = WILDCARD ∨ same key name)

/-- The name is the key's C string. -/
def CStrOf (key name : String) : Prop := (c_str key).val = name

/-- `x` is the value `v` of type `T`. -/
def Denotes : (T : ValueType) → Json → T.type → Prop
  | .int64_t, v, x => v = .int x.toInt
  | .string, v, x => v = .string x

/-- A query returns one entry for each matching path, in document order: the names taken at the
wildcards, and the value. -/
def Answers (same : String → String → Prop) (T : ValueType) (doc : Json) (keys : KeysType) :
    Prop :=
  ∃ (results : ResultsType T) (paths : List (List ℕ × List String × Json)),
    KafkaMetrics.get ⟨doc⟩ T keys = some (.ok results) ∧
    paths.Pairwise (·.1 < ·.1) ∧
    (∀ is names v, (is, names, v) ∈ paths ↔
      Path (Takes same) keys doc is names v ∧ isType T v = true) ∧
    List.Forall₂ (fun path e => e.1 = wildcardNames keys path.2.1 ∧ Denotes T path.2.2 e.2)
      paths results

/-- Names are unique in each object, and no name or string holds a NUL. -/
inductive Json.Plain : Json → Prop
  | null : Plain .null
  | bool (b : Bool) : Plain (.bool b)
  | int (n : Int) : Plain (.int n)
  | double : Plain .double
  | string {s : String} : NulFree s → Plain (.string s)
  | array {elements : List Json} : (∀ v ∈ elements, Plain v) → Plain (.array elements)
  | object {members : List Member} : (members.map Prod.fst).Nodup →
      (∀ member ∈ members, NulFree member.1) → (∀ member ∈ members, Plain member.2) →
      Plain (.object members)

/-! ## §2. The first member of a name. -/

/-- Where keys are unique, the first element of a key is the only one. -/
theorem mem_find?_of_nodup {α κ : Type} [DecidableEq κ] {f : α → κ} {l : List α}
    (h : (l.map f).Nodup) {x : α} {k : κ} :
    x ∈ (l.find? (f · = k)).toList ↔ x ∈ l ∧ f x = k := by
  rw [Option.mem_toList]
  constructor
  · intro hx
    exact ⟨List.mem_of_find?_eq_some hx, by simpa using List.find?_some hx⟩
  · rintro ⟨hx, rfl⟩
    cases hfind : l.find? (f · = f x) with
    | none => exact absurd (List.find?_eq_none.mp hfind x hx) (by simp)
    | some y =>
      have hy : f y = f x := by simpa using List.find?_some hfind
      rw [List.inj_on_of_nodup_map h (List.mem_of_find?_eq_some hfind) hx hy]

/-- **The members a key leads to are those it matches**, in a plain document. -/
theorem chosen_iff {v : Json} (h : v.Plain) (key : String) (i : ℕ) (name : String) (c : Json) :
    (i, name, c) ∈ chosen key v ↔ Takes CStrOf key v i name c := by
  cases hobj : v.IsObject with
  | false =>
    rw [chosen_of_not_object hobj]
    refine iff_of_false List.not_mem_nil ?_
    rintro ⟨members, rfl, -⟩
    simp [Json.IsObject] at hobj
  | true =>
    have hnodup : (v.positions.map (·.2.1)).Nodup := by
      cases h with
      | @object members hnodup _ _ =>
        rw [← Json.positions_members members, List.map_map] at hnodup
        exact hnodup
      | _ => simp [Json.IsObject] at hobj
    by_cases hkey : key = WILDCARD
    · rw [chosen, if_pos hkey, Json.mem_positions]
      simp [Takes, hkey]
    · rw [chosen, if_neg hkey, mem_find?_of_nodup hnodup, Json.mem_positions]
      simp only [Takes, CStrOf, hkey, false_or, eq_comm (a := name)]
      grind

/-- What a step keeps of a plain document. -/
theorem Takes.plain {same : String → String → Prop} {key name : String} {v c : Json} {i : ℕ}
    (h : v.Plain) (ht : Takes same key v i name c) : NulFree name ∧ c.Plain := by
  obtain ⟨members, rfl, hi, -⟩ := ht
  cases h with
  | object _ hnames hvalues =>
    have hmem := List.mem_of_getElem? hi
    exact ⟨hnames _ hmem, hvalues _ hmem⟩

/-! ## §3. The entries. -/

/-- The value read at the end of a path. -/
theorem denotes_of_value {T : ValueType} {v : Json} (h : v.Plain) {x : T.type}
    (hx : value T v = some x) : Denotes T v x := by
  have hT : isType T v = true := by
    by_contra hnot
    simp [value_of_not_isType hnot] at hx
  -- the type test leaves one kind of value for each type
  cases T with
  | int64_t =>
    cases v with
    | int n => exact congrArg Json.int (value_int.mp hx).2.symm
    | _ => simp [isType, Json.IsInt] at hT
  | string =>
    cases h with
    | @string s hs =>
      obtain rfl : (c_str s).val = x := Option.some.inj hx
      exact congrArg Json.string (c_str_of_nulFree hs).symm
    | _ => simp [isType, Json.IsString] at hT

theorem cut_of_nulFree {names : List String} (h : ∀ name ∈ names, NulFree name) :
    cut names = names := by
  rw [cut]
  conv_rhs => rw [← List.map_id names]
  exact List.map_congr_left fun name hname => c_str_of_nulFree (h name hname)

theorem mem_of_mem_wildcardNames {keys : KeysType} {names : List String} {name : String}
    (h : name ∈ wildcardNames keys names) : name ∈ names := by
  obtain ⟨⟨key, name'⟩, hmem, rfl⟩ := List.mem_map.mp h
  exact (List.of_mem_zip (List.mem_filter.mp hmem).1).2

/-- A `filterMap` keeps in step with the elements it reads. -/
theorem forall₂_filterMap {α β : Type} {f : α → Option β} {p : α → Bool}
    (h : ∀ a, p a = (f a).isSome) (l : List α) :
    List.Forall₂ (fun a b => a ∈ l ∧ f a = some b) (l.filter p) (l.filterMap f) := by
  induction l with
  | nil => exact .nil
  | cons a l ih =>
    have ih' := ih.imp fun a' b hb => And.imp_left (List.mem_cons_of_mem a) hb
    cases hfa : f a with
    | none =>
      rw [List.filter_cons_of_neg (by simp [h, hfa]), List.filterMap_cons_none hfa]
      exact ih'
    | some b =>
      rw [List.filter_cons_of_pos (by simp [h, hfa]), List.filterMap_cons_some hfa]
      exact .cons ⟨List.mem_cons_self, hfa⟩ ih'

/-- The paths found in a plain document are those that match. -/
theorem mem_found {doc : Json} (h : doc.Plain) {keys : KeysType} {is : List ℕ}
    {names : List String} {v : Json} :
    (is, names, v) ∈ search chosen keys doc ↔ Path (Takes CStrOf) keys doc is names v := by
  rw [mem_search]
  constructor
  · refine Path.imp (fun key v i name c hv hmem => ?_) h
    have ht := (chosen_iff hv key i name c).mp hmem
    exact ⟨ht, (ht.plain hv).2⟩
  · refine Path.imp (fun key v i name c hv ht => ?_) h
    exact ⟨(chosen_iff hv key i name c).mpr ht, (ht.plain hv).2⟩

/-- **A query returns exactly the matching paths**: one entry for each, in document order. -/
theorem get_answers {T : ValueType} {doc : Json} (hobj : doc.IsObject = true) (h : doc.Plain)
    {keys : KeysType} (hkeys : ValidKeys keys) : Answers CStrOf T doc keys := by
  refine ⟨entries T keys doc, (search chosen keys doc).filter fun path => isType T path.2.2,
    get_eq hobj hkeys, ?_, ?_, ?_⟩
  · exact (search_sorted chosen_sorted keys doc).filter _
  · intro is names v
    rw [List.mem_filter, mem_found h]
  · have hsome (path : List ℕ × List String × Json) :
        isType T path.2.2 = (entry T keys path).isSome := by
      rw [entry, Option.isSome_map]
      by_cases hT : isType T path.2.2 = true
      · obtain ⟨x, -, hx⟩ := getValue_of_isType hT
        rw [hx, hT, Option.isSome_some]
      · rw [value_of_not_isType hT, Option.isSome_none]
        simpa using hT
    refine (forall₂_filterMap hsome _).imp ?_
    rintro ⟨is, names, v⟩ e ⟨hmem, he⟩
    obtain ⟨x, hx, rfl⟩ := Option.map_eq_some_iff.mp he
    obtain ⟨hnames, hv⟩ := ((mem_found h).mp hmem).all (fun _ _ _ _ _ hv ht => ht.plain hv) h
    refine ⟨cut_of_nulFree fun name hname => ?_, denotes_of_value hv hx⟩
    exact hnames name (mem_of_mem_wildcardNames hname)

/-- Two brokers, and a member of another type. -/
def brokers : Json :=
  .object [("type", .string "consumer"),
    ("brokers", .object [
      ("b/2", .object [("state", .string "UP"), ("stateage", .int 4978600)]),
      ("b/1", .object [("stateage", .int 5000678), ("state", .string "INIT")]),
      ("none", .null)])]

theorem brokers_plain : brokers.Plain := by
  have hb2 : (Json.object [("state", .string "UP"), ("stateage", .int 4978600)]).Plain :=
    .object (by simp) (by decide) (by simpa using ⟨.string (by decide), .int _⟩)
  have hb1 : (Json.object [("stateage", .int 5000678), ("state", .string "INIT")]).Plain :=
    .object (by simp) (by decide) (by simpa using ⟨.int _, .string (by decide)⟩)
  refine .object (by simp) (by decide) ?_
  simp only [List.forall_mem_cons, List.not_mem_nil, false_implies, implies_true, and_true]
  refine ⟨.string (by decide), .object (by simp) (by decide) ?_⟩
  simpa using ⟨hb2, hb1, .null⟩

theorem get_answers_brokers : Answers CStrOf .string brokers ["brokers", "*", "state"] :=
  get_answers rfl brokers_plain ⟨by decide, by decide, by decide⟩

example : KafkaMetrics.getString ⟨brokers⟩ ["brokers", "*", "state"]
    = some (.ok [(["b/2"], "UP"), (["b/1"], "INIT")]) := by rfl

/-- The key `a`, NUL, `b` is answered with the member `a`. -/
theorem nul_key_answered :
    ¬ ∀ (T : ValueType) (doc : Json) (keys : KeysType), doc.IsObject = true → doc.Plain →
      ValidKeys keys → Answers Eq T doc keys := by
  intro h
  have hplain : (Json.object [("a", .int 1)]).Plain :=
    .object (by simp) (by decide) (by simpa using .int 1)
  obtain ⟨results, paths, hget, -, hpaths, hentries⟩ :=
    h .int64_t (.object [("a", .int 1)]) ["a\x00b"] rfl hplain ⟨by decide, by decide, by decide⟩
  have hanswer : KafkaMetrics.get ⟨.object [("a", .int 1)]⟩ .int64_t ["a\x00b"]
      = some (.ok [([], (1 : Int64))]) := by rfl
  obtain rfl : [([], (1 : Int64))] = results :=
    Except.ok.inj (Option.some.inj (hanswer.symm.trans hget))
  -- the one entry would need a path to a member named like the key
  cases hentries with
  | @cons path _ _ _ _ _ =>
    obtain ⟨is, names, v⟩ := path
    obtain ⟨hpath, -⟩ := (hpaths is names v).mp List.mem_cons_self
    obtain ⟨i, name, c, -, -, ⟨members, hobj, hi, hkey⟩, -⟩ := path_cons.mp hpath
    obtain rfl := Json.object.inj hobj
    obtain rfl : "a\x00b" = name := hkey.resolve_left (by decide)
    have hmem := List.mem_of_getElem? hi
    simp at hmem

end ModernCppKafka.Metrics
