/-
  ModernCppKafka.Metrics.Safety — which queries go wrong.

  `getResults` tests that a value is an object before it looks a member up in it.  `get` makes the
  first lookup, in the document's root, and does not test: a text such as `[]` or `1` is accepted
  by the constructor as well.

  Main results:
    * `get_of_not_validKeys` — a list of keys that cannot be queried is refused before anything
      is looked up;
    * `get_safe_iff`         — a query goes well unless its keys are valid and the root is no
      object;
    * `root_array_asserts`   — then it does not.
-/
import ModernCppKafka.Metrics.KafkaMetrics

namespace ModernCppKafka.Metrics

/-! ## §1. The keys. -/

theorem validKeys_cons {front : String} {rest : KeysType} :
    ValidKeys (front :: rest) ↔ front ≠ WILDCARD ∧ (front :: rest).getLast? ≠ some WILDCARD := by
  constructor
  · rintro ⟨-, hfirst, hlast⟩
    exact ⟨fun h => hfirst (congrArg some h), hlast⟩
  · rintro ⟨hfirst, hlast⟩
    exact ⟨List.cons_ne_nil front rest, by simpa using hfirst, hlast⟩

/-- **Refused**: whatever the document, the exception says what is wrong with the keys. -/
theorem get_of_not_validKeys {T : ValueType} (metrics : KafkaMetrics) {keys : KeysType}
    (h : ¬ ValidKeys keys) :
    ∃ what ∈ ["Input keys cannot be empty!", "The first key cannot be wildcard!",
        "The last key cannot be wildcard!"],
      metrics.get T keys = some (.error (.invalid_argument what)) := by
  cases keys with
  | nil => exact ⟨_, by simp, rfl⟩
  | cons front rest =>
    rw [KafkaMetrics.get]
    by_cases hfirst : front = WILDCARD
    · exact ⟨_, by simp, if_pos hfirst⟩
    · have hlast : (front :: rest).getLast? = some WILDCARD := by
        by_contra hlast
        exact h (validKeys_cons.mpr ⟨hfirst, hlast⟩)
      exact ⟨_, by simp, (if_neg hfirst).trans (if_pos hlast)⟩

/-! ## §2. The root. -/

/-- Nothing can be looked up in a root that is no object. -/
theorem get_of_not_object {T : ValueType} {metrics : KafkaMetrics}
    (hobj : metrics.jsonDoc.IsObject = false) {keys : KeysType} (hkeys : ValidKeys keys) :
    metrics.get T keys = none := by
  have hmembers : metrics.jsonDoc.members = none := by
    cases h : metrics.jsonDoc <;> simp_all [Json.IsObject, Json.members]
  cases keys with
  | nil => exact absurd rfl hkeys.nonempty
  | cons front rest =>
    obtain ⟨hfirst, hlast⟩ := validKeys_cons.mp hkeys
    rw [KafkaMetrics.get, if_neg hfirst, if_neg hlast, Json.FindMember, hmembers]
    rfl

/-- A call that goes well: it throws `std::invalid_argument` for keys that are not valid, and
returns a result for keys that are. -/
def GoesWell {Results : Type} (keys : KeysType) (answer : Option (Except Exception Results)) :
    Prop :=
  (¬ ValidKeys keys → ∃ what, answer = some (.error (.invalid_argument what))) ∧
    (ValidKeys keys → ∃ results, answer = some (.ok results))

theorem goesWell_get_iff (T : ValueType) (metrics : KafkaMetrics) (keys : KeysType) :
    GoesWell keys (metrics.get T keys) ↔ (ValidKeys keys → metrics.jsonDoc.IsObject = true) := by
  constructor
  · rintro ⟨-, hgood⟩ hkeys
    obtain ⟨results, hget⟩ := hgood hkeys
    by_contra hobj
    rw [get_of_not_object (by simpa using hobj) hkeys] at hget
    cases hget
  · intro h
    refine ⟨fun hkeys => ?_, fun hkeys => ⟨_, get_eq (h hkeys) hkeys⟩⟩
    obtain ⟨what, -, hget⟩ := get_of_not_validKeys metrics hkeys
    exact ⟨what, hget⟩

/-- **Safe queries**: for every document and all keys, both queries go well exactly when the keys
are refused or the root is an object, however the document goes on below it. -/
theorem get_safe_iff (metrics : KafkaMetrics) (keys : KeysType) :
    GoesWell keys (metrics.getInt keys) ∧ GoesWell keys (metrics.getString keys) ↔
      (ValidKeys keys → metrics.jsonDoc.IsObject = true) := by
  rw [KafkaMetrics.getInt, KafkaMetrics.getString, goesWell_get_iff, goesWell_get_iff, and_self]

/-- The text `[]` is well-formed JSON; asking it for a member asserts. -/
theorem root_array_asserts :
    KafkaMetrics.getInt ⟨.array []⟩ ["a"] = none ∧
      ¬ GoesWell ["a"] (KafkaMetrics.getInt ⟨.array []⟩ ["a"]) := by
  refine ⟨rfl, ?_⟩
  rintro ⟨-, hgood⟩
  obtain ⟨results, hget⟩ := hgood ⟨by decide, by decide, by decide⟩
  cases hget

end ModernCppKafka.Metrics
