/-
  ModernCppKafka.Properties — include/kafka/Properties.h.

  A property is a string or one of five callables, kept behind a pointer to a common base.  Its
  `expectedKey` says which key a callable belongs under; `validate` compares the two whenever a
  value is stored, and the casts elsewhere rely on that.  In `_kvMap[key] = ….validate(key)` the
  right operand of `=` is evaluated first, so a put that throws has not touched the map.

  Main results:
    * `put_of_error`           — a put that throws changes nothing;
    * `WellTyped.put`          — a put that does not stores a value under a key it belongs under;
    * `WellTyped.get_reserved` — so the cast at a reserved key succeeds;
    * `run_wellTyped`          — all of this in every history of objects made, copied and changed.
-/
import ModernCppKafka.Error
import ModernCppKafka.Lib.Run
import ModernCppKafka.Types

namespace ModernCppKafka

open ModernCppKafka.Lib.Run

/-! ## §1. Values. -/

/-- What a property may hold. -/
inductive Kind where
  | string | log | error | stats | oauthbearerTokenRefresh | interceptors
  deriving DecidableEq, Repr

/-- The types of the callables (`clients::LogCallback` and so on), with what
`typeid(T).name()` says of them. -/
structure ClientTypes where
  LogCallback : Type
  ErrorCallback : Type
  StatsCallback : Type
  OauthbearerTokenRefreshCallback : Type
  Interceptors : Type
  typeidName : Kind → String

/-- The `T` of an `ObjWrap<T>`. -/
abbrev Kind.type (C : ClientTypes) : Kind → Type
  | .string => String
  | .log => C.LogCallback
  | .error => C.ErrorCallback
  | .stats => C.StatsCallback
  | .oauthbearerTokenRefresh => C.OauthbearerTokenRefreshCallback
  | .interceptors => C.Interceptors

/-- The key that `ValueType`'s constructor for a kind expects; the one for strings leaves it
empty. -/
def Kind.expectedKey : Kind → String
  | .string => ""
  | .log => "log_cb"
  | .error => "error_cb"
  | .stats => "stats_cb"
  | .oauthbearerTokenRefresh => "oauthbearer_token_refresh_cb"
  | .interceptors => "interceptors"

/-- `ValueType`, made by one of its six constructors: `kind` is that of the `ObjWrap` behind
`object`. -/
structure ValueType (C : ClientTypes) where
  expectedKey : String
  kind : Kind
  object : kind.type C
  expected : expectedKey = kind.expectedKey

/-- `std::runtime_error`. -/
structure RuntimeError where
  what : String
  deriving DecidableEq, Repr

def nonStringValueKeys : List String :=
  ["log_cb", "error_cb", "stats_cb", "oauthbearer_token_refresh_cb", "interceptors"]

namespace ValueType

variable {C : ClientTypes}

/-- The constructors. -/
def of (kind : Kind) (object : kind.type C) : ValueType C := ⟨kind.expectedKey, kind, object, rfl⟩

def validate (v : ValueType C) (key : String) : Except RuntimeError (ValueType C) :=
  if (v.expectedKey.isEmpty ∧ nonStringValueKeys.any (· = key)) ∨
      (¬ v.expectedKey.isEmpty ∧ key ≠ v.expectedKey) then
    .error ⟨"Invalid key/value for configuration: " ++ key⟩
  else .ok v

/-- `dynamic_cast<ObjWrap<T>&>(*object)`; `none` is `std::bad_cast`. -/
def getValue (v : ValueType C) (T : Kind) : Option (T.type C) :=
  if h : v.kind = T then some (h ▸ v.object) else none

def toString (v : ValueType C) : String :=
  match v with
  | ⟨_, .string, value, _⟩ => value
  | ⟨_, kind, _, _⟩ => C.typeidName kind

end ValueType

/-! ## §2. The class. -/

/-- `std::map<std::string, ValueType>`. -/
abbrev PropertiesMap (C : ClientTypes) := Std.ExtTreeMap String (ValueType C) compare

structure Properties (C : ClientTypes) where
  _kvMap : PropertiesMap C := ∅

/-- What `get<T>()` may throw. -/
inductive GetException where
  | kafkaException (e : KafkaException)
  | bad_cast
  deriving DecidableEq, Repr

namespace Properties

variable {C : ClientTypes}

def validateAll : List (String × ValueType C) → Except RuntimeError Unit
  | [] => .ok ()
  | kv :: kvs => do
    let _ ← kv.2.validate kv.1
    validateAll kvs

/-- `Properties(PropertiesMap)`: the values are checked in key order. -/
def ofMap (kvMap : PropertiesMap C) : Except RuntimeError (Properties C) := do
  validateAll kvMap.toList
  return ⟨kvMap⟩

/-- The object after the call, and whether it returns.  The value is checked before
`_kvMap[key]` makes an entry. -/
def put (p : Properties C) (key : String) (value : ValueType C) :
    Properties C × Except RuntimeError Unit :=
  match value.validate key with
  | .error e => (p, .error e)
  | .ok v => (⟨p._kvMap.insert key v⟩, .ok ())

def remove (p : Properties C) (key : String) : Properties C := ⟨p._kvMap.erase key⟩

def eraseProperty (p : Properties C) (key : String) : Properties C := ⟨p._kvMap.erase key⟩

def contains (p : Properties C) (key : String) : Bool := p._kvMap.contains key

def get (p : Properties C) (T : Kind) (key : String) : Except GetException (T.type C) :=
  match p._kvMap[key]? with
  | none => .error (.kafkaException (.ofError (Error.ofMessage RD_KAFKA_RESP_ERR__INVALID_ARG
      ("Failed to get \"" ++ key ++ "\" from Properties!") false)))
  | some v =>
    match v.getValue T with
    | none => .error .bad_cast
    | some value => .ok value

/-- Only `std::bad_cast` is caught; there is no other exception once the key is there. -/
def getProperty (p : Properties C) (key : String) : Option String :=
  if p.contains key then (p.get .string key).toOption else none

def map (p : Properties C) : PropertiesMap C := p._kvMap

/-- A full match of `.+` followed by one of the endings; `.` is not a line break. -/
def sensitiveEndings : List String := [".password", ".username", "secret", "key", "pem"]

/-- `std::regex_match(key, reSensitiveKey)`. -/
def isSensitive (key : String) : Bool :=
  sensitiveEndings.any fun ending =>
    let rest := key.toList.take (key.length - ending.length)
    ending.toList.isSuffixOf key.toList && !rest.isEmpty && rest.all fun c => c ≠ '\n' && c ≠ '\r'

def toString (p : Properties C) : String :=
  p._kvMap.toList.foldl (fun ret kv =>
    ret ++ (if ret.isEmpty then "" else "|") ++ kv.1 ++ "=" ++
      (if isSensitive kv.1 then "*" else kv.2.toString)) ""

/-! ## §3. What is stored where. -/

/-- A callable belongs under its own key, a string under any but the callables'. -/
def Belongs (T : Kind) (key : String) : Prop :=
  if T = .string then key ∉ nonStringValueKeys else key = T.expectedKey

/-- What `validate` checks, and the two ways it ends. -/
theorem validate_cases (v : ValueType C) (key : String) :
    (Belongs v.kind key ∧ v.validate key = .ok v) ∨
      (¬ Belongs v.kind key ∧
        v.validate key = .error ⟨"Invalid key/value for configuration: " ++ key⟩) := by
  obtain ⟨expectedKey, kind, object, rfl⟩ := v
  by_cases h : Belongs kind key
  · refine Or.inl ⟨h, if_neg ?_⟩
    cases kind <;> simp_all [Belongs, Kind.expectedKey]
  · refine Or.inr ⟨h, if_pos ?_⟩
    cases kind <;> simp_all [Belongs, Kind.expectedKey]

/-- Every entry is where it belongs. -/
def WellTyped (p : Properties C) : Prop :=
  ∀ key v, p._kvMap[key]? = some v → Belongs v.kind key

/-- **Atomic**: a put that throws leaves the whole map as it was. -/
theorem put_of_error {p : Properties C} {key : String} {value : ValueType C} {e : RuntimeError}
    (h : (p.put key value).2 = .error e) : (p.put key value).1 = p := by
  rw [put] at h ⊢
  cases hv : value.validate key with
  | error e => rfl
  | ok v =>
    rw [hv] at h
    cases h

/-- The two ways a put ends. -/
theorem put_cases (p : Properties C) (key : String) (value : ValueType C) :
    (Belongs value.kind key ∧ p.put key value = (⟨p._kvMap.insert key value⟩, .ok ())) ∨
      (¬ Belongs value.kind key ∧ ∃ e, p.put key value = (p, .error e)) := by
  rcases validate_cases value key with ⟨hbelongs, hv⟩ | ⟨hnot, hv⟩
  · exact Or.inl ⟨hbelongs, by rw [put, hv]⟩
  · exact Or.inr ⟨hnot, _, by rw [put, hv]⟩

theorem getElem?_insert (kvMap : PropertiesMap C) (key : String) (value : ValueType C)
    (k : String) : (kvMap.insert key value)[k]? = if key = k then some value else kvMap[k]? := by
  rw [Std.ExtTreeMap.getElem?_insert]
  simp only [compare_eq_iff_eq]

theorem getElem?_remove (p : Properties C) (key k : String) :
    (p.remove key)._kvMap[k]? = if key = k then none else p._kvMap[k]? := by
  rw [remove, Std.ExtTreeMap.getElem?_erase]
  simp only [compare_eq_iff_eq]

theorem wellTyped_empty : WellTyped ({} : Properties C) := by
  intro key v h
  rw [Std.ExtTreeMap.getElem?_empty] at h
  cases h

/-- A value may be stored where it belongs. -/
theorem WellTyped.insert {p : Properties C} (h : p.WellTyped) {key : String}
    {value : ValueType C} (hbelongs : Belongs value.kind key) :
    WellTyped ⟨p._kvMap.insert key value⟩ := by
  intro k v hk
  rw [getElem?_insert] at hk
  split at hk
  · next hkey =>
    obtain rfl := Option.some.inj hk
    rw [← hkey]
    exact hbelongs
  · exact h k v hk

/-- **A put keeps the entries in place**, whether it returns or throws. -/
theorem WellTyped.put {p : Properties C} (h : p.WellTyped) (key : String) (value : ValueType C) :
    (p.put key value).1.WellTyped := by
  rcases put_cases p key value with ⟨hbelongs, hput⟩ | ⟨-, e, hput⟩
  · rw [hput]
    exact h.insert hbelongs
  · rw [hput]
    exact h

theorem WellTyped.remove {p : Properties C} (h : p.WellTyped) (key : String) :
    (p.remove key).WellTyped := by
  intro k v hk
  rw [getElem?_remove] at hk
  exact h k v (Option.ite_none_left_eq_some.mp hk).2

theorem WellTyped.filter {p : Properties C} (h : p.WellTyped)
    (f : String → ValueType C → Bool) : WellTyped ⟨p._kvMap.filter f⟩ := by
  intro k v hk
  rw [Std.ExtTreeMap.getElem?_filter'] at hk
  exact h k v (Option.filter_eq_some_iff.mp hk).1

theorem belongs_of_validateAll {kvs : List (String × ValueType C)}
    (h : validateAll kvs = .ok ()) : ∀ kv ∈ kvs, Belongs kv.2.kind kv.1 := by
  induction kvs with
  | nil => simp
  | cons kv kvs ih =>
    rw [validateAll] at h
    rcases validate_cases kv.2 kv.1 with ⟨hbelongs, hv⟩ | ⟨-, hv⟩
    · rw [hv] at h
      intro kv' hkv'
      rcases List.mem_cons.mp hkv' with rfl | hmem
      · exact hbelongs
      · exact ih h kv' hmem
    · rw [hv] at h
      cases h

/-- What the bulk constructor accepts is kept as it is, each value under a key of its own. -/
theorem wellTyped_ofMap {kvMap : PropertiesMap C} {p : Properties C} (h : ofMap kvMap = .ok p) :
    p = ⟨kvMap⟩ ∧ p.WellTyped := by
  rw [ofMap] at h
  cases hall : validateAll kvMap.toList with
  | error e =>
    rw [hall] at h
    cases h
  | ok u =>
    rw [hall] at h
    obtain rfl : (⟨kvMap⟩ : Properties C) = p := Except.ok.inj h
    refine ⟨rfl, fun key v hk => ?_⟩
    exact belongs_of_validateAll hall (key, v)
      (Std.ExtTreeMap.mem_toList_iff_getElem?_eq_some.mpr hk)

/-! ## §4. What is read. -/

/-- `getProperty` finds the entry when it is a string. -/
theorem getProperty_eq (p : Properties C) (key : String) :
    p.getProperty key = p._kvMap[key]?.bind (·.getValue .string) := by
  rw [getProperty, contains, get, Std.ExtTreeMap.contains_eq_isSome_getElem?]
  cases p._kvMap[key]? with
  | none => rfl
  | some v =>
    rw [if_pos (Option.isSome_some (a := v)), Option.bind_some]
    dsimp only
    cases v.getValue .string <;> rfl

/-- The properties with this string under the key. -/
def withString (p : Properties C) (key value : String) : Properties C :=
  ⟨p._kvMap.insert key (.of .string value)⟩

/-- The properties with a string under the key, this one if there was none. -/
def withDefault (p : Properties C) (key value : String) : Properties C :=
  if (p.getProperty key).isSome then p else p.withString key value

theorem getElem?_withString (p : Properties C) (key value k : String) :
    (p.withString key value)._kvMap[k]? =
      if key = k then some (.of .string value) else p._kvMap[k]? :=
  getElem?_insert p._kvMap key (.of .string value) k

@[simp] theorem getProperty_withString_self (p : Properties C) (key value : String) :
    (p.withString key value).getProperty key = some value := by
  rw [getProperty_eq, getElem?_withString, if_pos rfl]
  rfl

/-- Strings under the other keys stay. -/
theorem getProperty_withString_of_ne (p : Properties C) {key k : String} (value : String)
    (h : key ≠ k) : (p.withString key value).getProperty k = p.getProperty k := by
  rw [getProperty_eq, getElem?_withString, if_neg h, getProperty_eq]

theorem getProperty_remove_of_ne (p : Properties C) {key k : String} (h : key ≠ k) :
    (p.remove key).getProperty k = p.getProperty k := by
  rw [getProperty_eq, getElem?_remove, if_neg h, getProperty_eq]

theorem getElem?_withDefault_of_ne (p : Properties C) {key k : String} (value : String)
    (h : key ≠ k) : (p.withDefault key value)._kvMap[k]? = p._kvMap[k]? := by
  rw [withDefault]
  split
  · rfl
  · rw [getElem?_withString, if_neg h]

theorem withDefault_of_isSome {p : Properties C} {key : String} (value : String)
    (h : (p.getProperty key).isSome = true) : p.withDefault key value = p := if_pos h

/-- A default is read where there was nothing. -/
theorem getProperty_withDefault_self (p : Properties C) (key value : String) :
    (p.withDefault key value).getProperty key = some ((p.getProperty key).getD value) := by
  rw [withDefault]
  cases h : p.getProperty key with
  | none =>
    rw [if_neg (by simp)]
    exact getProperty_withString_self p key value
  | some old =>
    rw [if_pos (Option.isSome_some (a := old))]
    exact h

theorem getProperty_withDefault_of_ne (p : Properties C) {key k : String} (value : String)
    (h : key ≠ k) : (p.withDefault key value).getProperty k = p.getProperty k := by
  rw [withDefault]
  split
  · rfl
  · exact getProperty_withString_of_ne p value h

/-- The kinds other than a string are told apart by their keys. -/
theorem expectedKey_inj {T T' : Kind} (hT : T ≠ .string) (h : Belongs T' T.expectedKey) :
    T' = T := by
  cases T <;> cases T' <;> simp_all [Belongs, Kind.expectedKey, nonStringValueKeys]

/-- **No bad cast**: what is stored under a callable's key is that callable. -/
theorem WellTyped.get_reserved {p : Properties C} (h : p.WellTyped) {T : Kind} (hT : T ≠ .string)
    (hcontains : p.contains T.expectedKey = true) :
    ∃ value, p.get T T.expectedKey = .ok value := by
  rw [contains, Std.ExtTreeMap.contains_eq_isSome_getElem?] at hcontains
  obtain ⟨v, hv⟩ := Option.isSome_iff_exists.mp hcontains
  obtain rfl : v.kind = T := expectedKey_inj hT (h _ v hv)
  rw [get, hv]
  exact ⟨v.object, by simp [ValueType.getValue]⟩

theorem WellTyped.withString {p : Properties C} (h : p.WellTyped) {key : String}
    (hkey : key ∉ nonStringValueKeys) (value : String) : (p.withString key value).WellTyped :=
  h.insert ((if_pos rfl).mpr hkey)

theorem WellTyped.withDefault {p : Properties C} (h : p.WellTyped) {key : String}
    (hkey : key ∉ nonStringValueKeys) (value : String) : (p.withDefault key value).WellTyped := by
  rw [Properties.withDefault]
  split
  · exact h
  · exact h.withString hkey value

end Properties

/-! ## §5. Histories. -/

/-- What has been done to an object, as far as it took effect. -/
inductive Event (C : ClientTypes) where
  | built (kvMap : PropertiesMap C)
  | put (key : String) (value : ValueType C)
  | removed (key : String)

/-- The string put last under the key, the newest event first; a removal leaves nothing. -/
def lastPut {C : ClientTypes} (key : String) : List (Event C) → Option String
  | [] => none
  | .built kvMap :: _ => kvMap[key]?.bind (·.getValue .string)
  | .put key' value :: events =>
    if key' = key then value.getValue .string else lastPut key events
  | .removed key' :: events => if key' = key then none else lastPut key events

/-- An object with what has been done to it. -/
structure Tracked (C : ClientTypes) where
  props : Properties C := {}
  history : List (Event C) := []

/-- A statement of a program that uses properties; `i` and `j` are objects made so far. -/
inductive Statement (C : ClientTypes) where
  | default
  | ofMap (kvMap : PropertiesMap C)
  | copy (i : ℕ)
  | assign (i j : ℕ)
  | put (i : ℕ) (key : String) (value : ValueType C)
  | remove (i : ℕ) (key : String)
  | eraseProperty (i : ℕ) (key : String)

namespace Tracked

variable {C : ClientTypes}

/-- A put that throws is caught. -/
def put (obj : Tracked C) (key : String) (value : ValueType C) : Tracked C :=
  match obj.props.put key value with
  | (props, .ok ()) => ⟨props, .put key value :: obj.history⟩
  | (props, .error _) => ⟨props, obj.history⟩

def remove (obj : Tracked C) (key : String) : Tracked C :=
  ⟨obj.props.remove key, .removed key :: obj.history⟩

def eraseProperty (obj : Tracked C) (key : String) : Tracked C :=
  ⟨obj.props.eraseProperty key, .removed key :: obj.history⟩

/-- Execute a statement; `none` when it names an object that was not made. -/
def execute (objs : List (Tracked C)) : Statement C → Option (List (Tracked C))
  | .default => some (objs ++ [{}])
  | .ofMap kvMap =>
    match Properties.ofMap kvMap with
    | .ok props => some (objs ++ [⟨props, [.built kvMap]⟩])
    | .error _ => some objs
  | .copy i => objs[i]?.map fun obj => objs ++ [obj]
  | .assign i j => if i < objs.length then objs[j]?.map fun obj => objs.set i obj else none
  | .put i key value => objs[i]?.map fun obj => objs.set i (obj.put key value)
  | .remove i key => objs[i]?.map fun obj => objs.set i (obj.remove key)
  | .eraseProperty i key => objs[i]?.map fun obj => objs.set i (obj.eraseProperty key)

/-- The object is well-typed, and reads as its history says. -/
structure Good (obj : Tracked C) : Prop where
  wellTyped : obj.props.WellTyped
  reads : ∀ key, obj.props.getProperty key = lastPut key obj.history

theorem good_default : Good ({} : Tracked C) := by
  refine ⟨Properties.wellTyped_empty, fun key => ?_⟩
  rw [Properties.getProperty_eq, Std.ExtTreeMap.getElem?_empty]
  rfl

theorem good_ofMap {kvMap : PropertiesMap C} {props : Properties C}
    (h : Properties.ofMap kvMap = .ok props) : Good ⟨props, [.built kvMap]⟩ := by
  obtain ⟨rfl, hwell⟩ := Properties.wellTyped_ofMap h
  exact ⟨hwell, fun key => Properties.getProperty_eq _ key⟩

theorem Good.put {obj : Tracked C} (h : obj.Good) (key : String) (value : ValueType C) :
    (obj.put key value).Good := by
  have hwell := h.wellTyped.put key value
  rw [Tracked.put]
  rcases Properties.put_cases obj.props key value with ⟨-, hput⟩ | ⟨-, e, hput⟩
  · rw [hput] at hwell ⊢
    refine ⟨hwell, fun k => ?_⟩
    rw [Properties.getProperty_eq, Properties.getElem?_insert, lastPut]
    by_cases hk : key = k
    · rw [if_pos hk, if_pos hk]
      rfl
    · rw [if_neg hk, if_neg hk, ← h.reads, Properties.getProperty_eq]
  · rw [hput]
    exact h

theorem Good.remove {obj : Tracked C} (h : obj.Good) (key : String) : (obj.remove key).Good := by
  refine ⟨h.wellTyped.remove key, fun k => ?_⟩
  rw [Tracked.remove, Properties.getProperty_eq, Properties.getElem?_remove, lastPut]
  by_cases hk : key = k
  · rw [if_pos hk, if_pos hk]
    rfl
  · rw [if_neg hk, if_neg hk, ← h.reads, Properties.getProperty_eq]

/-- A statement keeps every object good. -/
theorem good_execute {objs objs' : List (Tracked C)} {st : Statement C}
    (h : ∀ obj ∈ objs, obj.Good) (hstep : execute objs st = some objs') :
    ∀ obj ∈ objs', obj.Good := by
  have hat : ∀ {i : ℕ} {obj : Tracked C}, objs[i]? = some obj → obj.Good :=
    fun hobj => h _ (List.mem_of_getElem? hobj)
  have happend : ∀ {obj : Tracked C}, obj.Good → ∀ obj' ∈ objs ++ [obj], obj'.Good := by
    intro obj hgood obj' hmem
    rcases List.mem_append.mp hmem with hold | hnew
    · exact h obj' hold
    · rwa [List.mem_singleton.mp hnew]
  have hset : ∀ {i : ℕ} {obj : Tracked C}, obj.Good → ∀ obj' ∈ objs.set i obj, obj'.Good := by
    intro i obj hgood obj' hmem
    rcases List.mem_or_eq_of_mem_set hmem with hold | rfl
    · exact h obj' hold
    · exact hgood
  cases st with
  | default =>
    obtain rfl := Option.some.inj hstep
    exact happend good_default
  | ofMap kvMap =>
    rw [execute] at hstep
    cases hmap : Properties.ofMap kvMap with
    | error e =>
      rw [hmap] at hstep
      obtain rfl := Option.some.inj hstep
      exact h
    | ok props =>
      rw [hmap] at hstep
      obtain rfl := Option.some.inj hstep
      exact happend (good_ofMap hmap)
  | copy i =>
    obtain ⟨obj, hobj, rfl⟩ := Option.map_eq_some_iff.mp hstep
    exact happend (hat hobj)
  | assign i j =>
    obtain ⟨-, hmap⟩ := Option.ite_none_right_eq_some.mp hstep
    obtain ⟨obj, hobj, rfl⟩ := Option.map_eq_some_iff.mp hmap
    exact hset (hat hobj)
  | put i key value =>
    obtain ⟨obj, hobj, rfl⟩ := Option.map_eq_some_iff.mp hstep
    exact hset ((hat hobj).put key value)
  | remove i key =>
    obtain ⟨obj, hobj, rfl⟩ := Option.map_eq_some_iff.mp hstep
    exact hset ((hat hobj).remove key)
  | eraseProperty i key =>
    obtain ⟨obj, hobj, rfl⟩ := Option.map_eq_some_iff.mp hstep
    exact hset ((hat hobj).remove key)

/-- **Well-typed, atomic, and what was put**: in every history of objects made, copied, assigned
and changed, with what is rejected caught, each object holds callables and strings where they
belong, a further put that throws changes nothing, `getProperty` returns the string put last, and
the casts at the five reserved keys succeed. -/
theorem run_wellTyped (sts : List (Statement C)) {objs : List (Tracked C)}
    (h : run execute [] sts = some objs) :
    ∀ obj ∈ objs,
      (∀ key v, obj.props.map[key]? = some v → Properties.Belongs v.kind key) ∧
      (∀ key value e, (obj.props.put key value).2 = .error e →
        (obj.props.put key value).1 = obj.props) ∧
      (∀ key, obj.props.getProperty key = lastPut key obj.history) ∧
      (∀ T : Kind, T ≠ .string → obj.props.contains T.expectedKey = true →
        ∃ value, obj.props.get T T.expectedKey = .ok value) := by
  have hgood : ∀ obj ∈ objs, obj.Good :=
    run_invariant (fun _ _ _ => good_execute) (by simp) h
  intro obj hobj
  exact ⟨(hgood obj hobj).wellTyped, fun _ _ _ => Properties.put_of_error,
    (hgood obj hobj).reads, fun _ => (hgood obj hobj).wellTyped.get_reserved⟩

/-- A string under a reserved key is refused, and a copy keeps what its source loses. -/
theorem run_wellTyped_copy :
    let clientId : ValueType ⟨Unit, Unit, Unit, Unit, Unit, fun _ => ""⟩ := .of .string "a"
    ∀ obj ∈ [Tracked.remove (Tracked.put {} "client.id" clientId) "client.id",
        Tracked.put {} "client.id" clientId],
      (∀ key v, obj.props.map[key]? = some v → Properties.Belongs v.kind key) ∧
      (∀ key value e, (obj.props.put key value).2 = .error e →
        (obj.props.put key value).1 = obj.props) ∧
      (∀ key, obj.props.getProperty key = lastPut key obj.history) ∧
      (∀ T : Kind, T ≠ .string → obj.props.contains T.expectedKey = true →
        ∃ value, obj.props.get T T.expectedKey = .ok value) :=
  run_wellTyped [.default, .put 0 "client.id" (.of .string "a"), .put 0 "log_cb" (.of .string "b"),
    .copy 0, .remove 0 "client.id"] rfl

end Tracked

end ModernCppKafka
