/-
  ModernCppKafka.Metrics.KafkaMetrics — the queries of include/kafka/addons/KafkaMetrics.h.

  A document is the tree rapidjson parses it into.  `none` is a run that goes wrong: a member
  looked up in a value that is no object, a value read as what it is not, a key iterator read
  past its end.

  `entries` is what a query finds, along the paths of a pattern: at a wildcard every member, at a
  name the first member that has it.

  Main results:
    * `getResults_eq` — the recursion appends these entries;
    * `get_eq`        — and a query returns them.
-/
import ModernCppKafka.Lib.PatternPath
import ModernCppKafka.RdKafkaHelper

namespace ModernCppKafka.Metrics

open ModernCppKafka.Lib.PatternPath

/-! ## §1. Documents. -/

/-- `rapidjson::Value`.  `int` is an integer, of any size; the value of other numbers is not
read. -/
inductive Json where
  | null
  | bool (b : Bool)
  | int (n : Int)
  | double
  | string (s : String)
  | array (elements : List Json)
  | object (members : List (String × Json))

/-- A `ConstMemberIterator` that is not at the end: the member it points to. -/
abbrev Member := String × Json

namespace Json

def IsObject : Json → Bool
  | object _ => true
  | _ => false

def IsString : Json → Bool
  | string _ => true
  | _ => false

/-- An integer that fits an `int`. -/
def IsInt : Json → Bool
  | int n => Int32.minValue.toInt ≤ n ∧ n ≤ Int32.maxValue.toInt
  | _ => false

def GetString : Json → Option String
  | string s => some (c_str s).val
  | _ => none

def GetInt (v : Json) : Option Int32 :=
  match v with
  | int n => if v.IsInt then some (Int32.ofInt n) else none
  | _ => none

/-- From `MemberBegin()` to `MemberEnd()`. -/
def members : Json → Option (List Member)
  | object members => some members
  | _ => none

/-- The first member of the name, which is passed as a C string; `some none` is
`MemberEnd()`. -/
def FindMember (v : Json) (name : String) : Option (Option Member) :=
  v.members.map (·.find? (·.1 = (c_str name).val))

end Json

/-! ## §2. Queries. -/

def WILDCARD : String := "*"

/-- `using KeysType = std::vector<std::string>`. -/
abbrev KeysType := List String

/-- The types `get` is instantiated at. -/
inductive ValueType where
  | int64_t
  | string
  deriving DecidableEq, Repr

abbrev ValueType.type : ValueType → Type
  | .int64_t => Int64
  | .string => String

instance ValueType.type.decidableEq : (T : ValueType) → DecidableEq T.type
  | .int64_t => inferInstanceAs (DecidableEq Int64)
  | .string => inferInstanceAs (DecidableEq String)

/-- The matched keys (for wildcards) and the value. -/
abbrev ResultsType (T : ValueType) := List (KeysType × T.type)

inductive Exception where
  | invalid_argument (what : String)
  deriving DecidableEq, Repr

/-- `std::is_same<ValueType, std::string>::value ? value.IsString() : value.IsInt()`. -/
def isType (T : ValueType) (v : Json) : Bool :=
  match T with
  | .string => v.IsString
  | .int64_t => v.IsInt

def getValue (T : ValueType) (v : Json) : Option T.type :=
  match T with
  | .int64_t => v.GetInt.map Int32.toInt64
  | .string => v.GetString

/-- `keysToParse` is the rest of the keys, up to `keysEnd`. -/
def getResults (T : ValueType) (results : ResultsType T) (keysForWildcards : KeysType)
    (iter : Member) : KeysType → Option (ResultsType T)
  | [] => if iter.2.IsObject then none else some results
  | key :: keysToParse =>
    if !iter.2.IsObject then some results
    else
      let isTheEnd := keysToParse.isEmpty
      if key = WILDCARD then
        iter.2.members.bind fun members =>
          members.foldlM (fun results subIter =>
            getResults T results (keysForWildcards ++ [(c_str subIter.1).val]) subIter
              keysToParse) results
      else
        (iter.2.FindMember key).bind fun
          | none => some results
          | some subIter =>
            if !isTheEnd then getResults T results keysForWildcards subIter keysToParse
            else if isType T subIter.2 then
              (getValue T subIter.2).map fun value => results ++ [(keysForWildcards, value)]
            else some results

/-- The document the constructor has parsed. -/
structure KafkaMetrics where
  jsonDoc : Json

def KafkaMetrics.get (metrics : KafkaMetrics) (T : ValueType) (keys : KeysType) :
    Option (Except Exception (ResultsType T)) :=
  match keys with
  | [] => some (.error (.invalid_argument "Input keys cannot be empty!"))
  | front :: rest =>
    if front = WILDCARD then
      some (.error (.invalid_argument "The first key cannot be wildcard!"))
    else if (front :: rest).getLast? = some WILDCARD then
      some (.error (.invalid_argument "The last key cannot be wildcard!"))
    else
      (metrics.jsonDoc.FindMember front).bind fun
        | none => some (.ok [])
        | some iter =>
          if rest.isEmpty then
            if isType T iter.2 then (getValue T iter.2).map fun value => .ok [([], value)]
            else some (.ok [])
          else (getResults T [] [] iter rest).map .ok

def KafkaMetrics.getInt (metrics : KafkaMetrics) (keys : KeysType) :
    Option (Except Exception (ResultsType .int64_t)) :=
  metrics.get .int64_t keys

def KafkaMetrics.getString (metrics : KafkaMetrics) (keys : KeysType) :
    Option (Except Exception (ResultsType .string)) :=
  metrics.get .string keys

/-! ## §3. What a query finds. -/

/-- The members of an object, each with its position. -/
def Json.positions (v : Json) : List (ℕ × Member) :=
  (v.members.getD []).zipIdx.map fun (member, i) => (i, member)

/-- The members a key leads to. -/
def chosen (key : String) (v : Json) : List (ℕ × Member) :=
  if key = WILDCARD then v.positions
  else (v.positions.find? (·.2.1 = (c_str key).val)).toList

/-- What is read of the value a path ends in, if it is of the type asked for. -/
def value (T : ValueType) (v : Json) : Option T.type :=
  if isType T v then getValue T v else none

/-- The names taken at the wildcards. -/
def wildcardNames (keys : KeysType) (names : List String) : List String :=
  ((keys.zip names).filter (·.1 = WILDCARD)).map (·.2)

/-- The names as C strings. -/
def cut (names : List String) : KeysType := names.map fun name => (c_str name).val

/-- The entry of a path. -/
def entry (T : ValueType) (keys : KeysType) (path : List ℕ × List String × Json) :
    Option (KeysType × T.type) :=
  (value T path.2.2).map (cut (wildcardNames keys path.2.1), ·)

/-- The entries of the paths found. -/
def entries (T : ValueType) (keys : KeysType) (v : Json) : ResultsType T :=
  (search chosen keys v).filterMap (entry T keys)

@[simp] theorem Json.positions_members (members : List Member) :
    (Json.object members).positions.map Prod.snd = members := by
  simp only [positions, Json.members, Option.getD_some, List.map_map]
  exact List.zipIdx_map_fst 0 members

theorem Json.mem_positions {v c : Json} {i : ℕ} {name : String} :
    (i, name, c) ∈ v.positions ↔
      ∃ members, v = .object members ∧ members[i]? = some (name, c) := by
  cases v with
  | object members => simp [positions, Json.members, List.mem_zipIdx_iff_getElem?]
  | _ => simp [positions, Json.members]

theorem Json.positions_sorted (v : Json) : v.positions.Pairwise (·.1 < ·.1) := by
  have hmap : v.positions.map Prod.fst = List.range' 0 (v.members.getD []).length := by
    rw [positions, List.map_map]
    exact List.zipIdx_map_snd 0 _
  have hlt : (v.positions.map Prod.fst).Pairwise (· < ·) := hmap ▸ List.pairwise_lt_range'
  exact List.pairwise_map.mp hlt

theorem chosen_sorted (key : String) (v : Json) : (chosen key v).Pairwise (·.1 < ·.1) := by
  unfold chosen
  split
  · exact v.positions_sorted
  · cases v.positions.find? _ <;> simp

/-! ## §4. The recursion finds it. -/

section Refine

variable {T : ValueType}

/-- A value that passes the type test is read without an assertion. -/
theorem getValue_of_isType {v : Json} (h : isType T v = true) :
    ∃ x, getValue T v = some x ∧ value T v = some x := by
  have hread : ∃ x, getValue T v = some x := by
    cases T <;> cases v <;> simp only [isType, Json.IsInt, Json.IsString, Bool.false_eq_true] at h
    · exact ⟨_, congrArg (Option.map Int32.toInt64) (if_pos h)⟩
    · exact ⟨_, rfl⟩
  obtain ⟨x, hx⟩ := hread
  exact ⟨x, hx, (if_pos h).trans hx⟩

/-- The integers that are read, and what is read of them. -/
theorem value_int {n : Int} {x : Int64} :
    value .int64_t (.int n) = some x ↔ (Json.int n).IsInt = true ∧ x.toInt = n := by
  by_cases h : (Json.int n).IsInt = true
  · obtain ⟨hlo, hhi⟩ : Int32.minValue.toInt ≤ n ∧ n ≤ Int32.maxValue.toInt := by
      simpa [Json.IsInt] using h
    have hvalue : value .int64_t (.int n) = some (Int32.ofInt n).toInt64 :=
      (if_pos h).trans (congrArg (Option.map Int32.toInt64) (if_pos h))
    have hint : (Int32.ofInt n).toInt64.toInt = n := by
      have hmax : Int32.maxValue.toInt = 2 ^ 31 - 1 := rfl
      rw [Int32.toInt_toInt64, Int32.toInt_ofInt_of_le hlo (by omega)]
    rw [hvalue]
    constructor
    · rintro heq
      obtain rfl := Option.some.inj heq
      exact ⟨h, hint⟩
    · rintro ⟨-, hx⟩
      exact congrArg some (Int64.toInt_inj.mp (hint.trans hx.symm))
  · have hvalue : value .int64_t (.int n) = none := if_neg h
    simp [hvalue, h]

theorem value_of_not_isType {v : Json} (h : ¬ isType T v = true) : value T v = none := if_neg h

theorem chosen_members_wildcard (members : List Member) :
    (chosen WILDCARD (.object members)).map Prod.snd = members := by
  rw [chosen, if_pos rfl, Json.positions_members]

theorem chosen_members_name {key : String} (h : key ≠ WILDCARD) (members : List Member) :
    (chosen key (.object members)).map Prod.snd =
      (members.find? (·.1 = (c_str key).val)).toList := by
  rw [chosen, if_neg h, ← Option.toList_map]
  congr 1
  conv_rhs => rw [← Json.positions_members members, List.find?_map]
  rfl

theorem chosen_of_not_object {v : Json} (h : v.IsObject = false) (key : String) :
    chosen key v = [] := by
  have hpos : v.positions = [] := by
    cases v with
    | object members => simp [Json.IsObject] at h
    | _ => rfl
  simp [chosen, hpos]

theorem entries_nil (v : Json) : entries T [] v = (value T v).toList.map ([], ·) := by
  rw [entries, search, List.filterMap_cons, entry]
  cases value T v <;> rfl

/-- The entries found under the members a key leads to. -/
theorem entries_cons (key : String) (keys : KeysType) (v : Json) :
    entries T (key :: keys) v = ((chosen key v).map Prod.snd).flatMap fun member =>
      (entries T keys member.2).map fun e =>
        ((if key = WILDCARD then cut [member.1] else []) ++ e.1, e.2) := by
  rw [entries, search, List.filterMap_flatMap, List.flatMap_map]
  apply List.flatMap_congr
  rintro ⟨i, name, c⟩ -
  rw [List.filterMap_map, entries, List.map_filterMap]
  apply List.filterMap_congr
  rintro ⟨is, names, w⟩ -
  have hnames : wildcardNames (key :: keys) (name :: names)
      = (if key = WILDCARD then [name] else []) ++ wildcardNames keys names := by
    by_cases hkey : key = WILDCARD <;> simp [wildcardNames, hkey]
  simp only [Function.comp_apply, entry, Option.map_map, hnames]
  congr 1
  funext x
  by_cases hkey : key = WILDCARD <;> simp [cut, hkey]

/-- A loop whose body appends appends what the bodies do. -/
theorem foldlM_append {α β : Type} {f : List β → α → Option (List β)} {g : α → List β}
    {l : List α} (h : ∀ acc, ∀ a ∈ l, f acc a = some (acc ++ g a)) (acc : List β) :
    l.foldlM f acc = some (acc ++ l.flatMap g) := by
  induction l generalizing acc with
  | nil => simp
  | cons a l ih =>
    rw [List.foldlM_cons, h acc a List.mem_cons_self]
    show l.foldlM f (acc ++ g a) = _
    rw [ih fun acc b hb => h acc b (List.mem_cons_of_mem a hb), List.flatMap_cons,
      List.append_assoc]

/-- **The recursion appends what is found**: it comes to an end, and neither an assertion fires
nor are the keys read past their end. -/
theorem getResults_eq {keys : KeysType} (hne : keys ≠ [])
    (hlast : keys.getLast? ≠ some WILDCARD) (results : ResultsType T) (keysForWildcards : KeysType)
    (iter : Member) :
    getResults T results keysForWildcards iter keys =
      some (results ++ (entries T keys iter.2).map fun e => (keysForWildcards ++ e.1, e.2)) := by
  induction keys generalizing results keysForWildcards iter with
  | nil => exact absurd rfl hne
  | cons key keys ih =>
    obtain ⟨name, v⟩ := iter
    rw [getResults]
    cases hobj : v.IsObject with
    | false =>
      -- the test at the top ends the search
      simp [entries_cons, chosen_of_not_object hobj]
    | true =>
      obtain ⟨members, rfl⟩ : ∃ members, v = .object members := by
        cases v <;> simp_all [Json.IsObject]
      by_cases hkey : key = WILDCARD
      · -- the last key is no wildcard, so there are keys left for the members
        obtain ⟨hne', hlast'⟩ : keys ≠ [] ∧ keys.getLast? ≠ some WILDCARD := by
          cases keys with
          | nil => simp [hkey] at hlast
          | cons key' keys => simpa using hlast
        subst hkey
        rw [entries_cons, chosen_members_wildcard]
        simp only [Bool.not_true, Bool.false_eq_true, if_false, if_true, Json.members,
          Option.bind_some]
        rw [foldlM_append fun acc member _ => ih hne' hlast' acc
          (keysForWildcards ++ [(c_str member.1).val]) member]
        simp [List.map_flatMap, cut, Function.comp_def]
      · rw [entries_cons, chosen_members_name hkey]
        simp only [Bool.not_true, Bool.false_eq_true, if_false, hkey, Json.FindMember,
          Json.members, Option.map_some, Option.bind_some]
        cases members.find? (·.1 = (c_str key).val) with
        | none => simp
        | some subIter =>
          -- at the last key the value counts, before it the search goes on in the member
          cases keys with
          | nil =>
            by_cases hT : isType T subIter.2 = true
            · obtain ⟨x, hread, hx⟩ := getValue_of_isType hT
              simp [hT, hread, entries_nil, hx]
            · simp [hT, entries_nil, value_of_not_isType hT]
          | cons key' keys =>
            have hlast' : (key' :: keys).getLast? ≠ some WILDCARD := by simpa using hlast
            simpa using ih (by simp) hlast' results keysForWildcards subIter

/-- What `get` asks of the keys. -/
structure ValidKeys (keys : KeysType) : Prop where
  nonempty : keys ≠ []
  first : keys.head? ≠ some WILDCARD
  last : keys.getLast? ≠ some WILDCARD

/-- **A query answers with what is found.** -/
theorem get_eq {metrics : KafkaMetrics} (hobj : metrics.jsonDoc.IsObject = true)
    {keys : KeysType} (hkeys : ValidKeys keys) :
    metrics.get T keys = some (.ok (entries T keys metrics.jsonDoc)) := by
  obtain ⟨members, hdoc⟩ : ∃ members, metrics.jsonDoc = .object members := by
    cases h : metrics.jsonDoc <;> simp_all [Json.IsObject]
  cases keys with
  | nil => exact absurd rfl hkeys.nonempty
  | cons front rest =>
    have hfront : front ≠ WILDCARD := fun h => hkeys.first (congrArg some h)
    rw [KafkaMetrics.get, if_neg hfront, if_neg hkeys.last, hdoc, entries_cons,
      chosen_members_name hfront]
    simp only [Json.FindMember, Json.members, Option.map_some, Option.bind_some]
    cases members.find? (·.1 = (c_str front).val) with
    | none => simp
    | some iter =>
      cases rest with
      | nil =>
        -- a single key is dealt with by `get` itself
        by_cases hT : isType T iter.2 = true
        · obtain ⟨x, hread, hx⟩ := getValue_of_isType hT
          simp [hT, hread, entries_nil, hx, hfront]
        · simp [hT, entries_nil, value_of_not_isType hT]
      | cons key keys =>
        have hlast : (key :: keys).getLast? ≠ some WILDCARD := by simpa using hkeys.last
        simp [getResults_eq (List.cons_ne_nil key keys) hlast, hfront]

/-- The entries of a query are those of the paths found. -/
theorem mem_entries {keys : KeysType} {v : Json} {w : KeysType} {x : T.type} :
    (w, x) ∈ entries T keys v ↔ ∃ is names c,
      Path (fun key v i name c => (i, name, c) ∈ chosen key v) keys v is names c ∧
        value T c = some x ∧ cut (wildcardNames keys names) = w := by
  rw [entries, List.mem_filterMap]
  constructor
  · rintro ⟨⟨is, names, c⟩, hmem, he⟩
    obtain ⟨x', hx, heq⟩ := Option.map_eq_some_iff.mp he
    obtain ⟨rfl, rfl⟩ := Prod.mk.inj heq
    exact ⟨is, names, c, mem_search.mp hmem, hx, rfl⟩
  · rintro ⟨is, names, c, hpath, hx, rfl⟩
    exact ⟨(is, names, c), mem_search.mpr hpath, by simp [entry, hx]⟩

end Refine

end ModernCppKafka.Metrics
