/-
  ModernCppKafka.Clients.KafkaProducer — the constructor of include/kafka/KafkaProducer.h.

  Before the base class the partitioner is looked up, and an idempotent producer's settings are
  checked.  The stubs for unit tests are not compiled in.

  Main results:
    * `construct_cases` — when the constructor returns, and with which producer.
-/
import ModernCppKafka.Clients.KafkaClient

namespace ModernCppKafka.Clients

open ModernCppKafka.Lib.Logged ModernCppKafka.Lib.Logged.WithLog

namespace ProducerConfig

def PARTITIONER := "partitioner"
def ENABLE_IDEMPOTENCE := "enable.idempotence"
def MAX_IN_FLIGHT := "max.in.flight"
def ACKS := "acks"

end ProducerConfig

/-! ## §1. The code. -/

/-- The class has no member that its constructor sets. -/
abbrev KafkaProducer (C : ClientTypes) := KafkaClient C

variable {C : ClientTypes} (env : Environment C) (random : String)

namespace KafkaProducer

/-- In the order of a `std::set`. -/
def availPartitioners : List String :=
  ["consistent", "consistent_random", "fnv1a", "fnv1a_random", "murmur2", "murmur2_random",
    "random"]

/-- Check whether it's an available partitioner. -/
def checkPartitioner (properties : Properties C) : Except CppException Unit :=
  match properties.getProperty ProducerConfig.PARTITIONER with
  | none => .ok ()
  | some partitioner =>
    if partitioner ∈ availPartitioners then .ok ()
    else .error (.invalidArg ("Invalid partitioner [" ++ partitioner ++ "]! Valid options: " ++
      String.intercalate ", " availPartitioners ++ "."))

def KAFKA_IDEMP_MAX_INFLIGHT : Int32 := 5

/-- "max.in.flight", of an idempotent producer. -/
def checkMaxInFlight (properties : Properties C) : Except CppException Unit :=
  match properties.getProperty ProducerConfig.MAX_IN_FLIGHT with
  | none => .ok ()
  | some maxInFlight => do
    if (← stoi maxInFlight) > KAFKA_IDEMP_MAX_INFLIGHT then
      throw (.invalidArg ("`max.in.flight` must be set <= " ++
        to_string KAFKA_IDEMP_MAX_INFLIGHT.toInt ++ " when `enable.idempotence` is `true`"))

/-- "acks", of an idempotent producer. -/
def checkAcks (properties : Properties C) : Except CppException Unit :=
  match properties.getProperty ProducerConfig.ACKS with
  | none => .ok ()
  | some acks =>
    if acks ≠ "all" ∧ acks ≠ "-1" then .error (.invalidArg
      "`acks` must be set to `all`/`-1` when `enable.idempotence` is `true`")
    else .ok ()

/-- For "idempotence" feature. -/
def checkIdempotence (properties : Properties C) : Except CppException Unit := do
  if properties.getProperty ProducerConfig.ENABLE_IDEMPOTENCE = some "true" then
    checkMaxInFlight properties
    checkAcks properties

def validateAndReformProperties (properties : Properties C) :
    Except CppException (Properties C) := do
  let newProperties ← KafkaClient.validateAndReformProperties random properties
  checkPartitioner newProperties
  checkIdempotence newProperties
  return newProperties

/-- `KafkaProducer(properties)`; the polling thread it starts is left out. -/
def construct (properties : Properties C) : Construct (KafkaProducer C) := do
  let newProperties ← validateAndReformProperties random properties
  let c ← KafkaClient.construct env .KafkaProducer newProperties
  KafkaClient.doLog env c Notice
    ("initializes with properties[" ++ (c_str c._properties.toString).val ++ "]")
  return c

/-! ## §2. When the constructor returns. -/

/-- What the constructor asks of the properties and of librdkafka. -/
structure Constructible (properties : Properties C) : Prop where
  servers : (properties.getProperty Config.BOOTSTRAP_SERVERS).isSome = true
  partitioner : checkPartitioner properties = .ok ()
  idempotence : checkIdempotence properties = .ok ()
  client : KafkaClient.Constructible env (KafkaClient.reformed random properties)

/-- The base class puts in nothing that is checked. -/
theorem getProperty_reformed (properties : Properties C) {key : String}
    (hclient : Config.CLIENT_ID ≠ key) (hlevel : Config.LOG_LEVEL ≠ key) :
    (KafkaClient.reformed random properties).getProperty key = properties.getProperty key := by
  rw [KafkaClient.reformed, Properties.getProperty_withDefault_of_ne _ _ hlevel,
    Properties.getProperty_withDefault_of_ne _ _ hclient]

/-- The checks look at four keys. -/
theorem checks_congr {properties properties' : Properties C}
    (h : ∀ key ∈ [ProducerConfig.PARTITIONER, ProducerConfig.ENABLE_IDEMPOTENCE,
      ProducerConfig.MAX_IN_FLIGHT, ProducerConfig.ACKS],
      properties'.getProperty key = properties.getProperty key) :
    checkPartitioner properties' = checkPartitioner properties ∧
      checkIdempotence properties' = checkIdempotence properties := by
  simp only [List.forall_mem_cons] at h
  obtain ⟨hpartitioner, hidempotence, hinflight, hacks, -⟩ := h
  constructor
  · rw [checkPartitioner, checkPartitioner, hpartitioner]
  · rw [checkIdempotence, checkIdempotence, hidempotence, checkMaxInFlight, checkMaxInFlight,
      hinflight, checkAcks, checkAcks, hacks]

theorem checks_reformed (properties : Properties C) :
    checkPartitioner (KafkaClient.reformed random properties) = checkPartitioner properties ∧
      checkIdempotence (KafkaClient.reformed random properties) = checkIdempotence properties := by
  refine checks_congr fun key hkey => getProperty_reformed random properties ?_ ?_
  · rintro rfl
    revert hkey
    decide
  · rintro rfl
    revert hkey
    decide

/-- **Validation** lets the reformed properties through when there is nothing to object to. -/
theorem validateAndReformProperties_cases (properties : Properties C) :
    ((properties.getProperty Config.BOOTSTRAP_SERVERS).isSome = true ∧
        checkPartitioner properties = .ok () ∧ checkIdempotence properties = .ok () ∧
        validateAndReformProperties random properties =
          .ok (KafkaClient.reformed random properties)) ∨
      (¬ ((properties.getProperty Config.BOOTSTRAP_SERVERS).isSome = true ∧
          checkPartitioner properties = .ok () ∧ checkIdempotence properties = .ok ()) ∧
        ∃ e, validateAndReformProperties random properties = .error e) := by
  obtain ⟨hpartitioner, hidempotence⟩ := checks_reformed random properties
  rw [validateAndReformProperties, KafkaClient.validateAndReformProperties_eq]
  by_cases hservers : (properties.getProperty Config.BOOTSTRAP_SERVERS).isNone = true
  · refine Or.inr ⟨fun h => ?_, _, by rw [if_pos hservers]; rfl⟩
    rw [Option.isNone_iff_eq_none.mp hservers] at h
    cases h.1
  · rw [if_neg hservers]
    show (_ ∧ _ ∧ _ ∧ (do
        checkPartitioner (KafkaClient.reformed random properties)
        checkIdempotence (KafkaClient.reformed random properties)
        return KafkaClient.reformed random properties) = _) ∨
      (_ ∧ ∃ e, (do
        checkPartitioner (KafkaClient.reformed random properties)
        checkIdempotence (KafkaClient.reformed random properties)
        return KafkaClient.reformed random properties) = .error e)
    rw [hpartitioner, hidempotence]
    -- the checks are pure, so the first that objects ends it
    cases checkPartitioner properties with
    | error e => exact Or.inr ⟨by simp, e, rfl⟩
    | ok u =>
      cases checkIdempotence properties with
      | error e => exact Or.inr ⟨by simp, e, rfl⟩
      | ok u => exact Or.inl ⟨by simpa [Option.isSome_iff_ne_none] using hservers, rfl, rfl, rfl⟩

theorem eq_reformed_of_validate {properties q : Properties C}
    (h : validateAndReformProperties random properties = .ok q) :
    q = KafkaClient.reformed random properties := by
  rcases validateAndReformProperties_cases random properties with ⟨-, -, -, hok⟩ | ⟨-, e, he⟩
  · exact Except.ok.inj (h.symm.trans hok)
  · cases he.symm.trans h

/-- **The constructor** returns exactly when everything is in order. -/
theorem construct_cases {properties : Properties C} (hp : properties.WellTyped) :
    (Constructible env random properties ∧
        ∃ c, (construct env random properties).result = .ok c ∧
          KafkaClient.Constructed env .KafkaProducer (KafkaClient.reformed random properties) c) ∨
      (¬ Constructible env random properties ∧
        ∃ e, (construct env random properties).result = .error e) := by
  rw [construct]
  rcases validateAndReformProperties_cases random properties with
    ⟨hservers, hpartitioner, hidempotence, hvalid⟩ | ⟨hnot, e, hvalid⟩
  · rw [bind_of_ok ((result_liftM _).trans hvalid)]
    rcases KafkaClient.construct_cases env (KafkaClient.wellTyped_reformed random hp)
        .KafkaProducer with ⟨hclient, c, hc, hfields⟩ | ⟨hclient, e, he⟩
    · refine Or.inl ⟨⟨hservers, hpartitioner, hidempotence, hclient⟩, c, ?_, hfields⟩
      rw [bind_of_ok hc, bind_of_ok (KafkaClient.result_doLog env c _ _)]
      rfl
    · refine Or.inr ⟨fun h => hclient h.client, e, ?_⟩
      rw [bind_of_error he]
  · refine Or.inr ⟨fun h => hnot ⟨h.servers, h.partitioner, h.idempotence⟩, e, ?_⟩
    rw [bind_of_error ((result_liftM _).trans hvalid)]

end KafkaProducer

end ModernCppKafka.Clients
