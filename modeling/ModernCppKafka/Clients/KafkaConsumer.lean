/-
  ModernCppKafka.Clients.KafkaConsumer — the constructor of include/kafka/KafkaConsumer.h, and
  building a consumer again from the properties of one.

  "max.poll.records" and "enable.auto.commit" are taken away from librdkafka, read by the wrapper,
  and printed back into `properties()`: the first as the `std::size_t` that `std::stoi`'s result
  was cast to.

  Main results:
    * `construct_cases`   — when the constructor returns, and with which consumer;
    * `printedBack_kept`  — effective properties come out as they went in;
    * `rebuilds_iff`      — exactly when a consumer can be built again from its properties.
-/
import ModernCppKafka.Clients.KafkaClient

namespace ModernCppKafka.Clients

open ModernCppKafka.Lib.Logged ModernCppKafka.Lib.Logged.WithLog

namespace ConsumerConfig

def GROUP_ID := "group.id"
def ENABLE_AUTO_COMMIT := "enable.auto.commit"
def MAX_POLL_RECORDS := "max.poll.records"

end ConsumerConfig

def AUTO_COMMIT_INTERVAL_MS := "auto.commit.interval.ms"
def ENABLE_AUTO_OFFSET_STORE := "enable.auto.offset.store"

/-! ## §1. The code. -/

/-- The class, as far as its constructor sets it. -/
structure KafkaConsumer (C : ClientTypes) extends KafkaClient C where
  _groupId : String := ""
  _maxPollRecords : ℕ := 500
  _enableAutoCommit : Bool := true

/-- The ids that `utility::getRandomString()` makes. -/
structure RandomIds where
  clientId : String
  groupId : String

variable {C : ClientTypes} (env : Environment C) (random : RandomIds)

namespace KafkaConsumer

open KafkaClient (accepts keeps putIfMissing_eq putString_eq)

def validateAndReformProperties (properties : Properties C) :
    Except CppException (Properties C) := do
  -- don't pass the "max.poll.records" property to librdkafka
  let properties := properties.remove ConsumerConfig.MAX_POLL_RECORDS
  let newProperties ← KafkaClient.validateAndReformProperties random.clientId properties
  let newProperties ← putIfMissing newProperties ConsumerConfig.GROUP_ID random.groupId
  let newProperties ← putString newProperties ConsumerConfig.ENABLE_AUTO_COMMIT "false"
  let newProperties ← putString newProperties AUTO_COMMIT_INTERVAL_MS "0"
  putString newProperties ENABLE_AUTO_OFFSET_STORE "true"

/-- `static_cast<std::size_t>`, 64 bits wide. -/
def castToSize (n : Int32) : ℕ := (n.toInt % 2 ^ 64).toNat

/-- Pick up the "max.poll.records" property. -/
def pickMaxPollRecords (properties : Properties C) : Except CppException ℕ :=
  match properties.getProperty ConsumerConfig.MAX_POLL_RECORDS with
  | none => .ok 500
  | some maxPollRecords => (stoi maxPollRecords).map castToSize

def isTrue (str : String) : Bool := str = "1" ∨ str = "true"

def isFalse (str : String) : Bool := str = "0" ∨ str = "false"

/-- Pick up the "enable.auto.commit" property. -/
def pickEnableAutoCommit (properties : Properties C) : Except CppException Bool :=
  match properties.getProperty ConsumerConfig.ENABLE_AUTO_COMMIT with
  | none => .ok true
  | some enableAutoCommit =>
    if !isTrue enableAutoCommit && !isFalse enableAutoCommit then
      .error (.invalidArg ("Invalid property[enable.auto.commit=" ++ enableAutoCommit ++
        "], which MUST be true(1) or false(0)!"))
    else .ok (isTrue enableAutoCommit)

/-- Fetch groupId from reformed configuration. -/
def fetchGroupId (properties : Properties C) : Except CppException String :=
  match properties.getProperty ConsumerConfig.GROUP_ID with
  | none => .error .assertion
  | some groupId => .ok groupId

/-- The constructor's body, up to its last statement; the queues and the polling thread it starts
are left out. -/
def setUp (properties : Properties C) (c : KafkaClient C) :
    Except CppException (KafkaConsumer C) := do
  let _maxPollRecords ← pickMaxPollRecords properties
  let _properties ← putString c._properties ConsumerConfig.MAX_POLL_RECORDS
    (to_string _maxPollRecords)
  let _enableAutoCommit ← pickEnableAutoCommit properties
  let _properties ← putString _properties ConsumerConfig.ENABLE_AUTO_COMMIT
    (if _enableAutoCommit then "true" else "false")
  let _groupId ← fetchGroupId _properties
  -- redirect the reply queue to the client group queue
  (throwIfWithError (Error.ofRespErr env.rd_kafka_poll_set_consumer)).mapError
    CppException.kafkaException
  return { c with _properties, _groupId, _maxPollRecords, _enableAutoCommit }

/-- `KafkaConsumer(properties)`. -/
def construct (properties : Properties C) : Construct (KafkaConsumer C) := do
  let newProperties ← validateAndReformProperties random properties
  let c ← KafkaClient.construct env .KafkaConsumer newProperties
  let c ← setUp env properties c
  KafkaClient.doLog env c.toKafkaClient Notice
    ("initialized with properties[" ++ (c_str c._properties.toString).val ++ "]")
  return c

/-! ## §2. The properties on their way. -/

/-- The properties that reach the base class. -/
def reformed (properties : Properties C) : Properties C :=
  KafkaClient.reformed random.clientId (properties.remove ConsumerConfig.MAX_POLL_RECORDS)
    |>.withDefault ConsumerConfig.GROUP_ID random.groupId
    |>.withString ConsumerConfig.ENABLE_AUTO_COMMIT "false"
    |>.withString AUTO_COMMIT_INTERVAL_MS "0"
    |>.withString ENABLE_AUTO_OFFSET_STORE "true"

/-- What is left of them after the base class. -/
def kept (properties : Properties C) : Properties C :=
  ⟨(reformed random properties)._kvMap.filter (keeps env)⟩

/-- With what the wrapper has read printed back. -/
def printedBack (properties : Properties C) (maxPollRecords : ℕ) (enableAutoCommit : Bool) :
    Properties C :=
  properties
    |>.withString ConsumerConfig.MAX_POLL_RECORDS (to_string maxPollRecords)
    |>.withString ConsumerConfig.ENABLE_AUTO_COMMIT (if enableAutoCommit then "true" else "false")

/-- Without servers the constructor throws, else it reforms. -/
theorem validateAndReformProperties_eq (properties : Properties C) :
    validateAndReformProperties random properties =
      if (properties.getProperty Config.BOOTSTRAP_SERVERS).isNone then
        .error (.invalidArg
          ("Validation failed! With no property [" ++ Config.BOOTSTRAP_SERVERS ++ "]"))
      else .ok (reformed random properties) := by
  rw [validateAndReformProperties, KafkaClient.validateAndReformProperties_eq,
    Properties.getProperty_remove_of_ne properties (by decide)]
  split
  · rfl
  · show (do
      let p ← putIfMissing _ ConsumerConfig.GROUP_ID random.groupId
      let p ← putString p ConsumerConfig.ENABLE_AUTO_COMMIT "false"
      let p ← putString p AUTO_COMMIT_INTERVAL_MS "0"
      putString p ENABLE_AUTO_OFFSET_STORE "true") = _
    rw [putIfMissing_eq (by decide)]
    show (do
      let p ← putString _ ConsumerConfig.ENABLE_AUTO_COMMIT "false"
      let p ← putString p AUTO_COMMIT_INTERVAL_MS "0"
      putString p ENABLE_AUTO_OFFSET_STORE "true") = _
    rw [putString_eq (by decide)]
    show (do
      let p ← putString _ AUTO_COMMIT_INTERVAL_MS "0"
      putString p ENABLE_AUTO_OFFSET_STORE "true") = _
    rw [putString_eq (by decide)]
    show putString _ ENABLE_AUTO_OFFSET_STORE "true" = _
    rw [putString_eq (by decide)]
    rfl

theorem eq_reformed_of_validate {properties q : Properties C}
    (h : validateAndReformProperties random properties = .ok q) :
    q = reformed random properties := by
  rw [validateAndReformProperties_eq] at h
  split at h
  · cases h
  · exact (Except.ok.inj h).symm

theorem wellTyped_reformed {properties : Properties C} (hp : properties.WellTyped) :
    (reformed random properties).WellTyped := by
  refine .withString (.withString (.withString (.withDefault
    (KafkaClient.wellTyped_reformed _ (hp.remove _)) ?_ _) ?_ _) ?_ _) ?_ _ <;> decide

theorem getElem?_kept (properties : Properties C) (k : String) :
    (kept env random properties)._kvMap[k]? =
      (reformed random properties)._kvMap[k]?.filter (keeps env k) :=
  Std.ExtTreeMap.getElem?_filter'

theorem getElem?_printedBack (properties : Properties C) (n : ℕ) (a : Bool) (k : String) :
    (printedBack properties n a)._kvMap[k]? =
      if ConsumerConfig.ENABLE_AUTO_COMMIT = k then
        some (.of .string (if a then "true" else "false"))
      else if ConsumerConfig.MAX_POLL_RECORDS = k then some (.of .string (to_string n))
      else properties._kvMap[k]? := by
  rw [printedBack, Properties.getElem?_withString, Properties.getElem?_withString]

/-- The other strings are as they were. -/
theorem getProperty_printedBack (properties : Properties C) (n : ℕ) (a : Bool) {k : String}
    (hauto : ConsumerConfig.ENABLE_AUTO_COMMIT ≠ k) (hmax : ConsumerConfig.MAX_POLL_RECORDS ≠ k) :
    (printedBack properties n a).getProperty k = properties.getProperty k := by
  rw [printedBack, Properties.getProperty_withString_of_ne _ _ hauto,
    Properties.getProperty_withString_of_ne _ _ hmax]

/-! ## §3. When the constructor returns. -/

/-- A consumer as the constructor's body leaves it; `kept` are the base class's properties. -/
structure SetUp (properties kept : Properties C) (c : KafkaConsumer C) : Prop where
  maxPoll : pickMaxPollRecords properties = .ok c._maxPollRecords
  autoCommit : pickEnableAutoCommit properties = .ok c._enableAutoCommit
  group : kept.getProperty ConsumerConfig.GROUP_ID = some c._groupId
  poll : env.rd_kafka_poll_set_consumer = RD_KAFKA_RESP_ERR_NO_ERROR
  properties_eq : c._properties = printedBack kept c._maxPollRecords c._enableAutoCommit

/-- A consumer as the constructor leaves it. -/
structure Built (properties : Properties C) (c : KafkaConsumer C) : Prop
    extends SetUp env properties (kept env random properties) c where
  servers : (properties.getProperty Config.BOOTSTRAP_SERVERS).isSome = true
  client : KafkaClient.Constructible env (reformed random properties)

/-- The body throws unless each of its steps goes well. -/
theorem setUp_cases (properties : Properties C) (c : KafkaClient C) :
    (∃ c', setUp env properties c = .ok c' ∧ SetUp env properties c._properties c' ∧
        c'._clientName = c._clientName ∧ c'._logLevel = c._logLevel ∧ c'._logCb = c._logCb) ∨
      ((∀ c', ¬ SetUp env properties c._properties c') ∧
        ∃ e, setUp env properties c = .error e) := by
  rw [setUp]
  -- the statements in turn: what one throws, no later one can make good
  cases hmax : pickMaxPollRecords properties with
  | error e =>
    refine Or.inr ⟨fun c' h => ?_, e, rfl⟩
    cases hmax.symm.trans h.maxPoll
  | ok n =>
    dsimp only [bind, Except.bind]
    rw [putString_eq (by decide)]
    cases hauto : pickEnableAutoCommit properties with
    | error e =>
      refine Or.inr ⟨fun c' h => ?_, e, rfl⟩
      cases hauto.symm.trans h.autoCommit
    | ok a =>
      dsimp only
      rw [putString_eq (by decide)]
      dsimp only
      rw [fetchGroupId, Properties.getProperty_withString_of_ne _ _ (by decide),
        Properties.getProperty_withString_of_ne _ _ (by decide)]
      cases hgroup : c._properties.getProperty ConsumerConfig.GROUP_ID with
      | none =>
        refine Or.inr ⟨fun c' h => ?_, .assertion, rfl⟩
        cases hgroup.symm.trans h.group
      | some g =>
        rcases KafkaClient.throwIfRespErr_cases env.rd_kafka_poll_set_consumer with
          ⟨hpoll, hthrow⟩ | ⟨hpoll, e, hthrow⟩
        · rw [hthrow]
          exact Or.inl ⟨_, rfl, ⟨hmax, hauto, hgroup, hpoll, rfl⟩, rfl, rfl, rfl⟩
        · refine Or.inr ⟨fun c' h => hpoll h.poll, e, ?_⟩
          rw [hthrow]

/-- **The constructor** returns a built consumer, or there is none. -/
theorem construct_cases {properties : Properties C} (hp : properties.WellTyped) :
    (∃ c, (construct env random properties).result = .ok c ∧ Built env random properties c) ∨
      ((∀ c, ¬ Built env random properties c) ∧
        ∃ e, (construct env random properties).result = .error e) := by
  rw [construct, validateAndReformProperties_eq]
  by_cases hservers : (properties.getProperty Config.BOOTSTRAP_SERVERS).isNone = true
  · refine Or.inr ⟨fun c hb => ?_, _, by rw [if_pos hservers]; rfl⟩
    have hsome := hb.servers
    rw [Option.isNone_iff_eq_none.mp hservers] at hsome
    cases hsome
  · rw [if_neg hservers, bind_of_ok (result_liftM _)]
    have hsome : (properties.getProperty Config.BOOTSTRAP_SERVERS).isSome = true := by
      simpa [Option.isSome_iff_ne_none] using hservers
    rcases KafkaClient.construct_cases env (wellTyped_reformed random hp) .KafkaConsumer with
      ⟨hclient, c₀, hc₀, hfields⟩ | ⟨hclient, e, he⟩
    · rw [bind_of_ok hc₀]
      have hkept : c₀._properties = kept env random properties := hfields.properties_eq
      rcases setUp_cases env properties c₀ with
        ⟨c, hsetUp, hset, -⟩ | ⟨hnot, e, hsetUp⟩
      · refine Or.inl ⟨c, ?_, ⟨hkept ▸ hset, hsome, hclient⟩⟩
        rw [bind_of_ok ((result_liftM _).trans hsetUp),
          bind_of_ok (KafkaClient.result_doLog env c.toKafkaClient _ _)]
        rfl
      · refine Or.inr ⟨fun c hb => hnot c (hkept ▸ hb.toSetUp), e, ?_⟩
        rw [bind_of_error ((result_liftM _).trans hsetUp)]
    · refine Or.inr ⟨fun c hb => hclient hb.client, e, ?_⟩
      rw [bind_of_error he]

/-- Nothing is misplaced in its properties. -/
theorem Built.wellTyped {properties : Properties C} {c : KafkaConsumer C}
    (hb : Built env random properties c) (hp : properties.WellTyped) :
    c._properties.WellTyped := by
  rw [hb.properties_eq, printedBack]
  refine .withString (.withString (.filter (wellTyped_reformed random hp) _) ?_ _) ?_ _ <;> decide

theorem built_of_construct {properties : Properties C} (hp : properties.WellTyped)
    {c : KafkaConsumer C} (h : (construct env random properties).result = .ok c) :
    Built env random properties c := by
  rcases construct_cases env random hp with ⟨c', hc', hb⟩ | ⟨-, e, he⟩
  · obtain rfl := Except.ok.inj (hc'.symm.trans h)
    exact hb
  · cases he.symm.trans h

/-! ## §4. Printed and read again. -/

/-- A size that was cast from an `int` is one again when the `int` was not negative. -/
theorem castToSize_le_iff (n : Int32) :
    (castToSize n : ℤ) ≤ Int32.maxValue.toInt ↔ 0 ≤ n.toInt := by
  have hmax : Int32.maxValue.toInt = 2 ^ 31 - 1 := by decide
  have hlower : -2 ^ 31 ≤ n.toInt := n.le_toInt
  have hupper : n.toInt < 2 ^ 31 := n.toInt_lt
  rw [castToSize, hmax]
  omega

/-- The size printed is read again when it is an `int`, else that throws. -/
theorem pickMaxPollRecords_printedBack (properties : Properties C) (n m : ℕ) (a : Bool) :
    pickMaxPollRecords (printedBack properties n a) = .ok m ↔
      (n : ℤ) ≤ Int32.maxValue.toInt ∧ m = n := by
  have hread : (printedBack properties n a).getProperty ConsumerConfig.MAX_POLL_RECORDS =
      some (to_string n) := by
    rw [printedBack, Properties.getProperty_withString_of_ne _ _ (by decide),
      Properties.getProperty_withString_self]
  have hlower : Int32.minValue.toInt ≤ (n : ℤ) := le_trans (by decide) (Int.natCast_nonneg n)
  rw [pickMaxPollRecords, hread]
  dsimp only
  rw [stoi_to_string]
  by_cases hupper : (n : ℤ) ≤ Int32.maxValue.toInt
  · have hcast : castToSize (Int32.ofInt n) = n := by
      have hmax : Int32.maxValue.toInt = 2 ^ 31 - 1 := by decide
      have hmin : Int32.minValue.toInt = -2 ^ 31 := by decide
      rw [castToSize, Int32.toInt_ofInt_of_le (by omega) (by omega)]
      omega
    rw [if_pos ⟨hlower, hupper⟩]
    constructor
    · intro h
      exact ⟨hupper, (Except.ok.inj h).symm.trans hcast⟩
    · rintro ⟨-, rfl⟩
      exact congrArg Except.ok hcast
  · rw [if_neg fun h => hupper h.2]
    constructor
    · intro h
      cases h
    · intro h
      exact absurd h.1 hupper

/-- The flag printed is read again. -/
theorem pickEnableAutoCommit_printedBack (properties : Properties C) (n : ℕ) (a : Bool) :
    pickEnableAutoCommit (printedBack properties n a) = .ok a := by
  rw [pickEnableAutoCommit, printedBack, Properties.getProperty_withString_self]
  cases a <;> rfl

/-- The size is an `int` unless a negative number was read. -/
theorem maxPollRecords_le_iff {properties : Properties C} {n : ℕ}
    (h : pickMaxPollRecords properties = .ok n) :
    (n : ℤ) ≤ Int32.maxValue.toInt ↔
      ∀ maxPollRecords m,
        properties.getProperty ConsumerConfig.MAX_POLL_RECORDS = some maxPollRecords →
        stoi maxPollRecords = .ok m → 0 ≤ m.toInt := by
  rw [pickMaxPollRecords] at h
  cases hread : properties.getProperty ConsumerConfig.MAX_POLL_RECORDS with
  | none =>
    rw [hread] at h
    obtain rfl := Except.ok.inj h
    exact iff_of_true (by decide) (by simp)
  | some maxPollRecords =>
    rw [hread] at h
    obtain ⟨m, hstoi, rfl⟩ := map_eq_ok.mp h
    rw [castToSize_le_iff]
    constructor
    · rintro hle _ _ ⟨⟩ hm
      obtain rfl := Except.ok.inj (hstoi.symm.trans hm)
      exact hle
    · intro hall
      exact hall _ _ rfl hstoi

/-! ## §5. Building it again. -/

/-- The keys that are mandatory or put in by the wrapper, and passed to librdkafka. -/
def ownKeys : List String :=
  [Config.BOOTSTRAP_SERVERS, Config.CLIENT_ID, Config.LOG_LEVEL, ConsumerConfig.GROUP_ID,
    ConsumerConfig.ENABLE_AUTO_COMMIT, AUTO_COMMIT_INTERVAL_MS, ENABLE_AUTO_OFFSET_STORE]

/-- librdkafka accepts those, whatever their values. -/
def AcceptsOwnKeys : Prop :=
  ∀ key ∈ ownKeys, ∀ value, (env.rd_kafka_conf_set (c_str key) value).1 = .RD_KAFKA_CONF_OK

/-- What is read in the properties after reforming them, key by key. -/
theorem getProperty_reformed (properties : Properties C) :
    (reformed random properties).getProperty Config.CLIENT_ID =
        some ((properties.getProperty Config.CLIENT_ID).getD random.clientId) ∧
      (reformed random properties).getProperty Config.LOG_LEVEL =
        some ((properties.getProperty Config.LOG_LEVEL).getD (to_string Notice.toInt)) ∧
      (reformed random properties).getProperty ConsumerConfig.GROUP_ID =
        some ((properties.getProperty ConsumerConfig.GROUP_ID).getD random.groupId) ∧
      (reformed random properties).getProperty Config.BOOTSTRAP_SERVERS =
        properties.getProperty Config.BOOTSTRAP_SERVERS ∧
      (reformed random properties).getProperty Config.ENABLE_MANUAL_EVENTS_POLL =
        properties.getProperty Config.ENABLE_MANUAL_EVENTS_POLL := by
  refine ⟨?_, ?_, ?_, ?_, ?_⟩ <;>
    simp (disch := decide) only [reformed, KafkaClient.reformed,
      Properties.getProperty_withString_of_ne, Properties.getProperty_withDefault_of_ne,
      Properties.getProperty_withDefault_self, Properties.getProperty_remove_of_ne]

section Rebuild

variable (hown : AcceptsOwnKeys env)

include hown

/-- The wrapper's own strings are kept as they are. -/
theorem getProperty_kept (properties : Properties C) {k : String} (hk : k ∈ ownKeys) :
    (kept env random properties).getProperty k =
      (reformed random properties).getProperty k := by
  have hall : accepts env k = fun _ => true := by
    funext v
    exact decide_eq_true (Or.inr (hown k hk (c_str v)))
  rw [kept, KafkaClient.getProperty_filter_keeps, hall]
  cases (reformed random properties).getProperty k <;> rfl

/-- And they are still there in the end, but for the flag. -/
theorem getProperty_effective (properties : Properties C) (n : ℕ) (a : Bool) {k : String}
    (hk : k ∈ ownKeys) (hauto : ConsumerConfig.ENABLE_AUTO_COMMIT ≠ k)
    (hmax : ConsumerConfig.MAX_POLL_RECORDS ≠ k) :
    (printedBack (kept env random properties) n a).getProperty k =
      (reformed random properties).getProperty k := by
  rw [getProperty_printedBack _ _ _ hauto hmax, getProperty_kept env random hown properties hk]

/-- **The second time**, no default is missing. -/
theorem reformed_effective (random' : RandomIds) (properties : Properties C) (n : ℕ) (a : Bool) :
    reformed random' (printedBack (kept env random properties) n a) =
      ((((printedBack (kept env random properties) n a).remove
        ConsumerConfig.MAX_POLL_RECORDS).withString ConsumerConfig.ENABLE_AUTO_COMMIT "false"
          ).withString AUTO_COMMIT_INTERVAL_MS "0").withString ENABLE_AUTO_OFFSET_STORE "true" := by
  have hread {k : String} (hk : k ∈ ownKeys) (hauto : ConsumerConfig.ENABLE_AUTO_COMMIT ≠ k)
      (hmax : ConsumerConfig.MAX_POLL_RECORDS ≠ k) {v : String}
      (hv : (reformed random properties).getProperty k = some v) :
      (((printedBack (kept env random properties) n a).remove
        ConsumerConfig.MAX_POLL_RECORDS).getProperty k).isSome = true := by
    rw [Properties.getProperty_remove_of_ne _ hmax,
      getProperty_effective env random hown properties n a hk hauto hmax, hv]
    rfl
  obtain ⟨hclient, hlevel, hgroup, -⟩ := getProperty_reformed random properties
  rw [reformed, KafkaClient.reformed,
    Properties.withDefault_of_isSome _ (hread (by decide) (by decide) (by decide) hclient),
    Properties.withDefault_of_isSome _ (hread (by decide) (by decide) (by decide) hlevel),
    Properties.withDefault_of_isSome _ (hread (by decide) (by decide) (by decide) hgroup)]

/-- **A fixed point**: the properties of a consumer come out of its constructor as they went
in. -/
theorem printedBack_kept (random' : RandomIds) (properties : Properties C) (n : ℕ) (a : Bool) :
    printedBack (kept env random' (printedBack (kept env random properties) n a)) n a =
      printedBack (kept env random properties) n a := by
  refine congrArg Properties.mk (Std.ExtTreeMap.ext_getElem? fun k => ?_)
  show (printedBack _ n a)._kvMap[k]? = (printedBack _ n a)._kvMap[k]?
  rw [getElem?_printedBack, getElem?_printedBack]
  -- first the keys that the wrapper sets itself, each time to the same
  by_cases hauto : ConsumerConfig.ENABLE_AUTO_COMMIT = k
  · rw [if_pos hauto, if_pos hauto]
  by_cases hmax : ConsumerConfig.MAX_POLL_RECORDS = k
  · rw [if_neg hauto, if_pos hmax, if_neg hauto, if_pos hmax]
  rw [if_neg hauto, if_neg hmax, if_neg hauto, if_neg hmax, getElem?_kept,
    reformed_effective env random hown, Properties.getElem?_withString]
  by_cases hstore : ENABLE_AUTO_OFFSET_STORE = k
  · rw [if_pos hstore, getElem?_kept, reformed, Properties.getElem?_withString, if_pos hstore]
  rw [if_neg hstore, Properties.getElem?_withString]
  by_cases hinterval : AUTO_COMMIT_INTERVAL_MS = k
  · rw [if_pos hinterval, getElem?_kept, reformed, Properties.getElem?_withString, if_neg hstore,
      Properties.getElem?_withString, if_pos hinterval]
  -- any other key was there before, and has passed the filter already
  rw [if_neg hinterval, Properties.getElem?_withString, if_neg hauto, Properties.getElem?_remove,
    if_neg hmax, getElem?_printedBack, if_neg hauto, if_neg hmax, getElem?_kept,
    Option.filter_filter]
  simp only [Bool.and_self]

/-- A consumer is what its own properties build, when its maximum can be read again. -/
theorem Built.rebuilt {properties : Properties C} {c : KafkaConsumer C}
    (hb : Built env random properties c) (random' : RandomIds)
    (hmax : (c._maxPollRecords : ℤ) ≤ Int32.maxValue.toInt) :
    Built env random' c._properties c := by
  have hread {k : String} (hk : k ∈ ownKeys) (hauto : ConsumerConfig.ENABLE_AUTO_COMMIT ≠ k)
      (hmax : ConsumerConfig.MAX_POLL_RECORDS ≠ k) :
      c._properties.getProperty k = (reformed random properties).getProperty k := by
    rw [hb.properties_eq, getProperty_effective env random hown properties _ _ hk hauto hmax]
  obtain ⟨-, hlevel, hgroup, hservers, -⟩ := getProperty_reformed random properties
  obtain ⟨-, hlevel', hgroup', hservers', hmanual'⟩ :=
    getProperty_reformed random' c._properties
  -- what was printed is read, what was put in is found, and so the base class starts again
  refine ⟨⟨?_, ?_, ?_, hb.poll, ?_⟩, ?_, ?_⟩
  · rw [hb.properties_eq]
    exact (pickMaxPollRecords_printedBack _ _ _ _).mpr ⟨hmax, rfl⟩
  · rw [hb.properties_eq]
    exact pickEnableAutoCommit_printedBack _ _ _
  · rw [getProperty_kept env random' hown _ (by decide), hgroup',
      hread (by decide) (by decide) (by decide),
      ← getProperty_kept env random hown _ (by decide), hb.group]
    rfl
  · rw [hb.properties_eq]
    exact (printedBack_kept env random hown random' _ _ _).symm
  · rw [hread (by decide) (by decide) (by decide), hservers]
    exact hb.servers
  · refine hb.client.congr env ?_ ?_ ?_ ?_
    · obtain ⟨level, hok⟩ := hb.client.level
      refine ⟨level, ?_⟩
      rw [KafkaClient.logLevelOf, hlevel] at hok
      rw [KafkaClient.logLevelOf, hlevel', hread (by decide) (by decide) (by decide), hlevel]
      exact hok
    · have hall : accepts env Config.ENABLE_MANUAL_EVENTS_POLL = fun _ => true := by
        funext v
        exact decide_eq_true (Or.inl (by decide))
      rw [hmanual', hb.properties_eq, getProperty_printedBack _ _ _ (by decide) (by decide), kept,
        KafkaClient.getProperty_filter_keeps, hall]
      cases (reformed random properties).getProperty Config.ENABLE_MANUAL_EVENTS_POLL <;> rfl
    · rw [hservers', hread (by decide) (by decide) (by decide)]
    · -- an entry that is left now was there the first time
      intro hc
      rw [hb.properties_eq, reformed_effective env random hown, Properties.contains,
        Std.ExtTreeMap.contains_eq_isSome_getElem?, Properties.getElem?_withString,
        if_neg (by decide), Properties.getElem?_withString, if_neg (by decide),
        Properties.getElem?_withString, if_neg (by decide), Properties.getElem?_remove,
        if_neg (by decide), getElem?_printedBack, if_neg (by decide), if_neg (by decide),
        getElem?_kept] at hc
      rw [Properties.contains, Std.ExtTreeMap.contains_eq_isSome_getElem?]
      obtain ⟨value, hvalue⟩ := Option.isSome_iff_exists.mp hc
      rw [(Option.filter_eq_some_iff.mp hvalue).1]
      rfl

end Rebuild

/-- **Building again fails** when the maximum cannot be read. -/
theorem not_built_of_lt {properties : Properties C} {c : KafkaConsumer C}
    (hb : Built env random properties c) (random' : RandomIds)
    (hmax : Int32.maxValue.toInt < c._maxPollRecords) (c' : KafkaConsumer C) :
    ¬ Built env random' c._properties c' := by
  intro hb'
  have hread := hb'.maxPoll
  rw [hb.properties_eq] at hread
  have hle := ((pickMaxPollRecords_printedBack _ _ _ _).mp hread).1
  omega

/-- What a consumer offers its user as its configuration. -/
def SameConfiguration (c c' : KafkaConsumer C) : Prop :=
  c'._properties = c._properties ∧ c'._groupId = c._groupId ∧
    c'._maxPollRecords = c._maxPollRecords ∧ c'._enableAutoCommit = c._enableAutoCommit

/-- There is no choice in what is built. -/
theorem Built.unique {properties : Properties C} {c c' : KafkaConsumer C}
    (h : Built env random properties c) (h' : Built env random properties c') :
    SameConfiguration c c' := by
  have hmax := Except.ok.inj (h'.maxPoll.symm.trans h.maxPoll)
  have hauto := Except.ok.inj (h'.autoCommit.symm.trans h.autoCommit)
  refine ⟨?_, Option.some.inj (h'.group.symm.trans h.group), hmax, hauto⟩
  rw [h.properties_eq, h'.properties_eq, hmax, hauto]

/-- **Rebuilding**, exactly: a consumer can be built again from its properties, whatever random
ids are made meanwhile, and comes out the same, exactly when the number read from its
"max.poll.records" was not negative. -/
theorem rebuilds_iff {properties : Properties C} (hp : properties.WellTyped)
    (hown : AcceptsOwnKeys env) {c : KafkaConsumer C}
    (hc : (construct env random properties).result = .ok c) (random' : RandomIds) :
    (∃ c', (construct env random' c._properties).result = .ok c' ∧ SameConfiguration c c') ↔
      ∀ maxPollRecords n,
        properties.getProperty ConsumerConfig.MAX_POLL_RECORDS = some maxPollRecords →
        stoi maxPollRecords = .ok n → 0 ≤ n.toInt := by
  have hb := built_of_construct env random hp hc
  rw [← maxPollRecords_le_iff hb.maxPoll]
  constructor
  · rintro ⟨c', hc', -⟩
    by_contra hlt
    exact not_built_of_lt env random hb random' (lt_of_not_ge hlt) c'
      (built_of_construct env random' (hb.wellTyped env random hp) hc')
  · intro hle
    have hagain := hb.rebuilt env random hown random' hle
    rcases construct_cases env random' (hb.wellTyped env random hp) with
      ⟨c', hc', hb'⟩ | ⟨hnot, -⟩
    · exact ⟨c', hc', hagain.unique env random' hb'⟩
    · exact absurd hagain (hnot c)

/-- Properties with a broker and this "max.poll.records". -/
def withMaximum (maxPollRecords : String) : Properties plainTypes :=
  localhost.withString ConsumerConfig.MAX_POLL_RECORDS maxPollRecords

theorem wellTyped_withMaximum (maxPollRecords : String) :
    (withMaximum maxPollRecords).WellTyped :=
  wellTyped_localhost.withString (by decide) _

/-- A maximum of ten comes back. -/
theorem rebuilds_iff_ten :
    ∃ c, (construct agreeable ⟨"a", "b"⟩ (withMaximum "10")).result = .ok c ∧
      ∃ c', (construct agreeable ⟨"c", "d"⟩ c._properties).result = .ok c' ∧
        SameConfiguration c c' := by
  have hmax : (construct agreeable ⟨"a", "b"⟩ (withMaximum "10")).result.map
      (fun c => c._maxPollRecords) = .ok 10 := by decide +kernel
  obtain ⟨c, hc, -⟩ := map_eq_ok.mp hmax
  have hread : (withMaximum "10").getProperty ConsumerConfig.MAX_POLL_RECORDS = some "10" :=
    Properties.getProperty_withString_self _ _ _
  refine ⟨c, hc, (rebuilds_iff agreeable ⟨"a", "b"⟩ (wellTyped_withMaximum "10")
    (fun _ _ _ => rfl) hc ⟨"c", "d"⟩).mpr ?_⟩
  intro s n hs hn
  obtain rfl := Option.some.inj (hread.symm.trans hs)
  obtain rfl := Except.ok.inj ((by decide : stoi "10" = .ok 10).symm.trans hn)
  decide

/-- `-1` becomes the largest `std::size_t`, is printed as such, and is too large for an `int` when
it is read again. -/
theorem negative_maximum_is_not_read :
    ∃ c, (construct agreeable ⟨"a", "b"⟩ (withMaximum "-1")).result = .ok c ∧
      c._maxPollRecords = 18446744073709551615 ∧
      ¬ ∃ c', (construct agreeable ⟨"c", "d"⟩ c._properties).result = .ok c' ∧
        SameConfiguration c c' := by
  have hmax : (construct agreeable ⟨"a", "b"⟩ (withMaximum "-1")).result.map
      (fun c => c._maxPollRecords) = .ok 18446744073709551615 := by decide +kernel
  obtain ⟨c, hc, hread⟩ := map_eq_ok.mp hmax
  have hb := built_of_construct _ _ (wellTyped_withMaximum "-1") hc
  refine ⟨c, hc, hread, ?_⟩
  rintro ⟨c', hc', -⟩
  refine not_built_of_lt _ _ hb ⟨"c", "d"⟩ ?_ c'
    (built_of_construct _ _ (hb.wellTyped _ _ (wellTyped_withMaximum "-1")) hc')
  rw [hread]
  decide

end KafkaConsumer

end ModernCppKafka.Clients
