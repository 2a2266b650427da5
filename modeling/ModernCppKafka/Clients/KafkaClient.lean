/-
  ModernCppKafka.Clients.KafkaClient — the constructor of include/kafka/KafkaClient.h.

  The properties are validated and completed, a few are read by the wrapper itself, and all the
  strings are offered to `rd_kafka_conf_set`; what librdkafka accepts is what `properties()`
  returns, what it rejects is logged.  Whatever is outside the wrapper is an `Environment`.

  Main results:
    * `setProperties_eq`     — what the loop keeps and what it logs, for any properties whose
      values are where they belong;
    * `construct_cases`      — when the constructor returns, and with which client.
-/
import ModernCppKafka.Lib.Decimal
import ModernCppKafka.Lib.LastWriter
import ModernCppKafka.Lib.Logged
import ModernCppKafka.Log
import ModernCppKafka.Properties

namespace ModernCppKafka.Clients

open ModernCppKafka.Lib.Decimal ModernCppKafka.Lib.LastWriter ModernCppKafka.Lib.Logged
open ModernCppKafka.Lib.Logged.WithLog

/-! ## §1. Exceptions and numbers. -/

/-- What a constructor may end with; `assertion` is a failed `assert`. -/
inductive CppException where
  | kafkaException (e : KafkaException)
  | runtime_error (what : String)
  | invalid_argument (what : String)
  | out_of_range (what : String)
  | bad_cast
  | assertion
  deriving DecidableEq

/-- `KAFKA_THROW_ERROR(Error(RD_KAFKA_RESP_ERR__INVALID_ARG, message))`. -/
def CppException.invalidArg (message : String) : CppException :=
  .kafkaException (.ofError (Error.ofMessage RD_KAFKA_RESP_ERR__INVALID_ARG message false))

/-- `e.what()`, for the exceptions of `std::stoi`. -/
def CppException.what : CppException → String
  | .invalid_argument what => what
  | .out_of_range what => what
  | _ => ""

/-- `std::stoi`. -/
def stoi (s : String) : Except CppException Int32 :=
  match parseInt (c_str s).val.toList with
  | none => .error (.invalid_argument "stoi")
  | some z =>
    if Int32.minValue.toInt ≤ z ∧ z ≤ Int32.maxValue.toInt then .ok (Int32.ofInt z)
    else .error (.out_of_range "stoi")

/-- `std::to_string`. -/
def to_string (z : ℤ) : String := toString z

/-- Reading what was printed: the number itself, as far as an `int` holds it. -/
theorem stoi_to_string (z : ℤ) :
    stoi (to_string z) =
      if Int32.minValue.toInt ≤ z ∧ z ≤ Int32.maxValue.toInt then .ok (Int32.ofInt z)
      else .error (.out_of_range "stoi") := by
  -- digits and a sign are no NUL, so `c_str` is the whole text
  have hfree : NulFree (to_string z) := by
    have hdigits : ∀ n : ℕ, NUL ∉ Nat.toDigits 10 n := by
      intro n hmem
      exact absurd (Nat.isDigit_of_mem_toDigits (by norm_num) (by norm_num) hmem) (by decide)
    rw [NulFree, to_string]
    cases z with
    | ofNat n =>
      show NUL ∉ (Nat.repr n).toList
      rw [Nat.toList_repr]
      exact hdigits n
    | negSucc n =>
      show NUL ∉ ("-" ++ Nat.repr (n + 1)).toList
      rw [String.toList_append, Nat.toList_repr, List.mem_append, not_or]
      exact ⟨by decide, hdigits _⟩
  rw [stoi, c_str_of_nulFree hfree, to_string, parseInt_toString]

/-! ## §2. The world outside. -/

/-- `rd_kafka_conf_res_t`. -/
inductive RkConfRes where
  | RD_KAFKA_CONF_UNKNOWN
  | RD_KAFKA_CONF_INVALID
  | RD_KAFKA_CONF_OK
  deriving DecidableEq, Repr

def RkConfRes.toInt : RkConfRes → ℤ
  | .RD_KAFKA_CONF_UNKNOWN => -2
  | .RD_KAFKA_CONF_INVALID => -1
  | .RD_KAFKA_CONF_OK => 0

/-- What the callbacks and librdkafka do.  `hasTarget` is `std::function`'s conversion to `bool`;
`rd_kafka_conf_set` comes with the text it puts into its error buffer. -/
structure Environment (C : ClientTypes) where
  DefaultLogger : C.LogCallback
  hasTarget : C.LogCallback → Bool
  rd_kafka_conf_set : CString → CString → RkConfRes × CString
  rd_kafka_conf_interceptor_add_on_new : RespErr
  rd_kafka_last_error : RespErr
  rd_kafka_brokers_add : CString → ℤ
  rd_kafka_poll_set_consumer : RespErr

/-- A call of the log callback, but for the source file and line it names. -/
structure LogLine where
  level : Int32
  msg : String
  deriving DecidableEq, Repr

/-- A constructor: what it logs, and the client or the exception. -/
abbrev Construct (α : Type) := WithLog LogLine CppException α

/-! ## §3. The class. -/

inductive ClientType where
  | KafkaConsumer | KafkaProducer | AdminClient
  deriving DecidableEq, Repr

def getClientTypeString (type : ClientType) : String :=
  if type = .KafkaConsumer then "KafkaConsumer"
  else if type = .KafkaProducer then "KafkaProducer" else "AdminClient"

namespace Config

def BOOTSTRAP_SERVERS := "bootstrap.servers"
def CLIENT_ID := "client.id"
def LOG_LEVEL := "log_level"
def ENABLE_MANUAL_EVENTS_POLL := "enable.manual.events.poll"
def ERROR_CB := "error_cb"

end Config

/-- `Log::Level`, as the `int`s it is cast to. -/
def Emerg : Int32 := 0
def Err : Int32 := 3
def Notice : Int32 := 5
def Debug : Int32 := 7

structure KafkaClient (C : ClientTypes) where
  _properties : Properties C := {}
  _clientId : String := ""
  _clientName : String := ""
  _logLevel : Int32 := Notice
  _logCb : C.LogCallback
  _statsCb : Option C.StatsCallback := none
  _errorCb : Option C.ErrorCallback := none
  _oauthbearerTokenRefreshCb : Option C.OauthbearerTokenRefreshCallback := none
  _enableManualEventsPoll : Bool := false
  _interceptors : Option C.Interceptors := none
  _opened : Bool := false

variable {C : ClientTypes} (env : Environment C)

/-- `properties.get<T>(key)`, where an exception leaves the constructor. -/
def getOrThrow (properties : Properties C) (T : Kind) (key : String) :
    Except CppException (T.type C) :=
  match properties.get T key with
  | .ok value => .ok value
  | .error (.kafkaException e) => .error (.kafkaException e)
  | .error .bad_cast => .error .bad_cast

/-- `properties.put(key, value)`, where an exception leaves the constructor. -/
def putOrThrow (properties : Properties C) (key : String) (value : ValueType C) :
    Except CppException (Properties C) :=
  match properties.put key value with
  | (properties, .ok ()) => .ok properties
  | (_, .error e) => .error (.runtime_error e.what)

/-- `put` of a `std::string`. -/
def putString (properties : Properties C) (key value : String) :
    Except CppException (Properties C) :=
  putOrThrow properties key (.of .string value)

/-- Put the default unless there is a string already. -/
def putIfMissing (properties : Properties C) (key value : String) :
    Except CppException (Properties C) :=
  match properties.getProperty key with
  | some _ => .ok properties
  | none => putString properties key value

namespace KafkaClient

/-- `doLog`: below the level, and with a callback set. -/
def doLog (c : KafkaClient C) (level : Int32) (text : String) : Construct Unit :=
  if level ≥ 0 ∧ level ≤ c._logLevel ∧ env.hasTarget c._logCb then
    WithLog.log [⟨level, logLine c._clientName text⟩]
  else pure ()

/-- `setLogLevel`, of a live client: the level is clamped. -/
def setLogLevel (c : KafkaClient C) (level : Int32) : KafkaClient C :=
  { c with _logLevel := if level < Emerg then Emerg else if level > Debug then Debug else level }

/-- `random` is the client id made by `utility::getRandomString()`. -/
def validateAndReformProperties (random : String) (properties : Properties C) :
    Except CppException (Properties C) := do
  if (properties.getProperty Config.BOOTSTRAP_SERVERS).isNone then
    throw (.invalidArg ("Validation failed! With no property [" ++ Config.BOOTSTRAP_SERVERS ++ "]"))
  let newProperties ← putIfMissing properties Config.CLIENT_ID random
  putIfMissing newProperties Config.LOG_LEVEL (to_string Notice.toInt)

/-! ## §4. The constructor, part by part. -/

/-- Save clientID. -/
def saveClientId (c : KafkaClient C) (clientType : ClientType) (properties : Properties C) :
    KafkaClient C :=
  match properties.getProperty Config.CLIENT_ID with
  | some clientId =>
    { c with
      _clientId := clientId
      _clientName := getClientTypeString clientType ++ "[" ++ clientId ++ "]" }
  | none => c

/-- Log Callback. -/
def saveLogCallback (c : KafkaClient C) (properties : Properties C) :
    Except CppException (KafkaClient C) := do
  if properties.contains "log_cb" then
    let cb ← getOrThrow properties .log "log_cb"
    return { c with _logCb := cb }
  else return c

/-- The level a text stands for. -/
def parseLogLevel (logLevel : String) : Except CppException Int32 :=
  match stoi logLevel with
  | .error e => .error (.invalidArg
      ("Invalid log_level[" ++ logLevel ++ "], which must be an number!" ++ e.what))
  | .ok level =>
    if level < Emerg ∨ level > Debug then .error (.invalidArg
      ("Invalid log_level[" ++ logLevel ++ "], which must be a value between 0 and 7!"))
    else .ok level

/-- Save LogLevel. -/
def saveLogLevel (c : KafkaClient C) (properties : Properties C) :
    Except CppException (KafkaClient C) :=
  match properties.getProperty Config.LOG_LEVEL with
  | none => .ok c
  | some logLevel => (parseLogLevel logLevel).map fun level => { c with _logLevel := level }

/-- The flag a text stands for. -/
def parseEnableManualEventsPoll (option : String) : Except CppException Bool :=
  if option = "true" ∨ option = "t" ∨ option = "1" then .ok true
  else if option = "false" ∨ option = "f" ∨ option = "0" then .ok false
  else .error (.invalidArg ("Invalid option[" ++ option ++
    "] for \"enable.manual.events.poll\", which must be a bool value (true or false)!"))

/-- Save "enable.manual.events.poll" option. -/
def saveEnableManualEventsPoll (c : KafkaClient C) (properties : Properties C) :
    Except CppException (KafkaClient C) :=
  match properties.getProperty Config.ENABLE_MANUAL_EVENTS_POLL with
  | none => .ok c
  | some option => (parseEnableManualEventsPoll option).map fun enabled =>
      { c with _enableManualEventsPoll := enabled }

/-- Those private properties are only available for `C++ wrapper`, not for librdkafka. -/
def PRIVATE_PROPERTY_KEYS : List String := ["max.poll.records", "enable.manual.events.poll"]

/-- The line for a property that librdkafka rejects. -/
def rejection (k v : String) (result : RkConfRes) (errInfo : CString) : String :=
  "failed to be initialized with property[" ++ (c_str k).val ++ ":" ++ (c_str v).val ++
    "], result[" ++ toString result.toInt ++ "]: " ++ errInfo.val

/-- The loop over `properties.map()`; `props` are the entries left. -/
def setProperties (properties : Properties C) (c : KafkaClient C) :
    List (String × ValueType C) → Construct (KafkaClient C)
  | [] => return c
  | (k, value) :: props =>
    match properties.getProperty k with
    | none => setProperties properties c props
    | some v =>
      if k ∈ PRIVATE_PROPERTY_KEYS then do
        let _properties ← putOrThrow c._properties k value
        setProperties properties { c with _properties } props
      else
        match env.rd_kafka_conf_set (c_str k) (c_str v) with
        | (.RD_KAFKA_CONF_OK, _) => do
          let _properties ← putOrThrow c._properties k value
          setProperties properties { c with _properties } props
        | (result, errInfo) => do
          doLog env c Err (rejection k v result errInfo)
          setProperties properties c props

/-- `if (properties.contains(key)) set…(properties.get<T>(key))`. -/
def getIfContained (properties : Properties C) (T : Kind) (key : String) (old : Option (T.type C)) :
    Except CppException (Option (T.type C)) :=
  if properties.contains key then (getOrThrow properties T key).map some else .ok old

/-- Interceptor. -/
def addInterceptors (properties : Properties C) : Except CppException Unit :=
  if properties.contains "interceptors" then
    (throwIfWithError (Error.ofRespErr env.rd_kafka_conf_interceptor_add_on_new)).mapError
      .kafkaException
  else .ok ()

/-- The callbacks other than the log callback, and the interceptors. -/
def saveCallbacks (c : KafkaClient C) (properties : Properties C) :
    Except CppException (KafkaClient C) := do
  let _statsCb ← getIfContained properties .stats "stats_cb" c._statsCb
  let _errorCb ← getIfContained properties .error "error_cb" c._errorCb
  let _oauthbearerTokenRefreshCb ← getIfContained properties .oauthbearerTokenRefresh
    "oauthbearer_token_refresh_cb" c._oauthbearerTokenRefreshCb
  let _interceptors ← getIfContained properties .interceptors "interceptors" c._interceptors
  addInterceptors env properties
  return { c with _statsCb, _errorCb, _oauthbearerTokenRefreshCb, _interceptors }

/-- `rd_kafka_new` and `rd_kafka_brokers_add`. -/
def start (c : KafkaClient C) (properties : Properties C) :
    Except CppException (KafkaClient C) := do
  (throwIfWithError (Error.ofRespErr env.rd_kafka_last_error)).mapError .kafkaException
  let brokers := properties.getProperty Config.BOOTSTRAP_SERVERS
  match brokers with
  | none =>
    throw (.invalidArg "No broker could be added successfully, BOOTSTRAP_SERVERS=[NA]")
  | some brokers =>
    if env.rd_kafka_brokers_add (c_str brokers) = 0 then
      throw (.invalidArg
        ("No broker could be added successfully, BOOTSTRAP_SERVERS=[" ++ brokers ++ "]"))
    else return { c with _opened := true }

/-- What is read before the loop. -/
def readSettings (clientType : ClientType) (properties : Properties C) :
    Except CppException (KafkaClient C) := do
  let c := saveClientId { _logCb := env.DefaultLogger } clientType properties
  let c ← saveLogCallback c properties
  let c ← saveLogLevel c properties
  saveEnableManualEventsPoll c properties

/-- What is done after it. -/
def finish (c : KafkaClient C) (properties : Properties C) :
    Except CppException (KafkaClient C) := do
  let c ← saveCallbacks env c properties
  start env c properties

/-- `KafkaClient(clientType, properties, extraConfigRegister)`. -/
def construct (clientType : ClientType) (properties : Properties C) :
    Construct (KafkaClient C) := do
  let c ← readSettings env clientType properties
  let c ← setProperties env properties c properties.map.toList
  finish env c properties

/-! ## §5. Before the loop. -/

theorem putOrThrow_of_belongs {properties : Properties C} {k : String} {value : ValueType C}
    (h : Properties.Belongs value.kind k) :
    putOrThrow properties k value = .ok ⟨properties._kvMap.insert k value⟩ := by
  rcases Properties.put_cases properties k value with ⟨-, hput⟩ | ⟨hnot, -⟩
  · rw [putOrThrow, hput]
  · exact absurd h hnot

theorem putString_eq {key : String} (hkey : key ∉ nonStringValueKeys) (properties : Properties C)
    (value : String) : putString properties key value = .ok (properties.withString key value) :=
  putOrThrow_of_belongs ((if_pos rfl).mpr hkey)

theorem putIfMissing_eq {key : String} (hkey : key ∉ nonStringValueKeys)
    (properties : Properties C) (value : String) :
    putIfMissing properties key value = .ok (properties.withDefault key value) := by
  rw [putIfMissing, Properties.withDefault, putString_eq hkey]
  cases properties.getProperty key <;> rfl

/-- The properties with the defaults put in. -/
def reformed (random : String) (properties : Properties C) : Properties C :=
  (properties.withDefault Config.CLIENT_ID random).withDefault Config.LOG_LEVEL
    (to_string Notice.toInt)

/-- Without servers it throws, else the defaults are put in. -/
theorem validateAndReformProperties_eq (random : String) (properties : Properties C) :
    validateAndReformProperties random properties =
      if (properties.getProperty Config.BOOTSTRAP_SERVERS).isNone then
        .error (.invalidArg
          ("Validation failed! With no property [" ++ Config.BOOTSTRAP_SERVERS ++ "]"))
      else .ok (reformed random properties) := by
  rw [validateAndReformProperties]
  split
  · rfl
  · rw [putIfMissing_eq (by decide)]
    exact putIfMissing_eq (by decide) _ _

theorem wellTyped_reformed (random : String) {properties : Properties C}
    (hp : properties.WellTyped) : (reformed random properties).WellTyped :=
  (hp.withDefault (by decide) random).withDefault (by decide) _

/-- The level to log at. -/
def logLevelOf (properties : Properties C) : Except CppException Int32 :=
  match properties.getProperty Config.LOG_LEVEL with
  | none => .ok Notice
  | some logLevel => parseLogLevel logLevel

/-- Whether events are polled by hand. -/
def manualEventsPollOf (properties : Properties C) : Except CppException Bool :=
  match properties.getProperty Config.ENABLE_MANUAL_EVENTS_POLL with
  | none => .ok false
  | some option => parseEnableManualEventsPoll option

/-- The callback to log with. -/
def logCallbackOf (properties : Properties C) : C.LogCallback :=
  (properties.get .log "log_cb").toOption.getD env.DefaultLogger

/-- The name to log under. -/
def nameOf (clientType : ClientType) (properties : Properties C) : String :=
  match properties.getProperty Config.CLIENT_ID with
  | some clientId => getClientTypeString clientType ++ "[" ++ clientId ++ "]"
  | none => ""

section WellTyped

variable {properties : Properties C} (hp : properties.WellTyped)

include hp

/-- At a callable's key there is nothing to throw. -/
theorem getOrThrow_of_contains {T : Kind} (hT : T ≠ .string)
    (h : properties.contains T.expectedKey = true) :
    ∃ value, properties.get T T.expectedKey = .ok value ∧
      getOrThrow properties T T.expectedKey = .ok value := by
  obtain ⟨value, hget⟩ := hp.get_reserved hT h
  exact ⟨value, hget, by rw [getOrThrow, hget]⟩

theorem saveLogCallback_eq (c : KafkaClient C) :
    saveLogCallback c properties =
      .ok { c with _logCb := (properties.get .log "log_cb").toOption.getD c._logCb } := by
  rw [saveLogCallback]
  cases h : properties.contains "log_cb" with
  | false =>
    have hnone : properties._kvMap["log_cb"]? = none := by
      rw [Properties.contains, Std.ExtTreeMap.contains_eq_isSome_getElem?] at h
      exact Option.not_isSome_iff_eq_none.mp (by simp [h])
    rw [Properties.get, hnone]
    rfl
  | true =>
    obtain ⟨cb, hget, hthrow⟩ := getOrThrow_of_contains hp (T := .log) (by decide) h
    show (do
      let cb ← getOrThrow properties .log Kind.log.expectedKey
      return { c with _logCb := cb }) = _
    rw [hthrow, show properties.get .log "log_cb" = .ok cb from hget]
    rfl

/-- **The settings**: what the stages read, one after another. -/
theorem readSettings_eq (clientType : ClientType) :
    readSettings env clientType properties = (do
      let _logLevel ← logLevelOf properties
      let _enableManualEventsPoll ← manualEventsPollOf properties
      return { _clientId := (properties.getProperty Config.CLIENT_ID).getD ""
               _clientName := nameOf clientType properties
               _logCb := logCallbackOf env properties
               _logLevel, _enableManualEventsPoll }) := by
  have hclient : saveClientId { _logCb := env.DefaultLogger } clientType properties =
      { _clientId := (properties.getProperty Config.CLIENT_ID).getD ""
        _clientName := nameOf clientType properties
        _logCb := env.DefaultLogger } := by
    rw [saveClientId, nameOf]
    cases properties.getProperty Config.CLIENT_ID <;> rfl
  rw [readSettings, hclient, saveLogCallback_eq hp, ← logCallbackOf]
  -- a setting that is not given stays at the member's initial value
  have hmanual : ∀ c : KafkaClient C, c._enableManualEventsPoll = false →
      saveEnableManualEventsPoll c properties = (manualEventsPollOf properties).map fun enabled =>
        { c with _enableManualEventsPoll := enabled } := by
    intro c hc
    rw [saveEnableManualEventsPoll, manualEventsPollOf]
    cases properties.getProperty Config.ENABLE_MANUAL_EVENTS_POLL with
    | none =>
      show Except.ok c = Except.ok { c with _enableManualEventsPoll := false }
      rw [← hc]
    | some option => rfl
  have hlevel : ∀ c : KafkaClient C, c._logLevel = Notice →
      saveLogLevel c properties = (logLevelOf properties).map fun level =>
        { c with _logLevel := level } := by
    intro c hc
    rw [saveLogLevel, logLevelOf]
    cases properties.getProperty Config.LOG_LEVEL with
    | none =>
      show Except.ok c = Except.ok { c with _logLevel := Notice }
      rw [← hc]
    | some logLevel => rfl
  show (do
    let c ← saveLogLevel _ properties
    saveEnableManualEventsPoll c properties) = _
  rw [hlevel _ rfl]
  cases logLevelOf properties with
  | error e => rfl
  | ok level =>
    show saveEnableManualEventsPoll _ properties = _
    rw [hmanual _ rfl]
    cases manualEventsPollOf properties <;> rfl

end WellTyped

/-! ## §6. The loop. -/

/-- A string is kept when the wrapper has a use for it or librdkafka accepts it. -/
def accepts (k v : String) : Bool :=
  k ∈ PRIVATE_PROPERTY_KEYS ∨ (env.rd_kafka_conf_set (c_str k) (c_str v)).1 = .RD_KAFKA_CONF_OK

/-- An entry is kept when it is a string that is. -/
def keeps (k : String) (value : ValueType C) : Bool :=
  match value.getValue .string with
  | none => false
  | some v => accepts env k v

/-- The strings left are those that are accepted. -/
theorem getProperty_filter_keeps (properties : Properties C) (k : String) :
    (⟨properties._kvMap.filter (keeps env)⟩ : Properties C).getProperty k =
      (properties.getProperty k).filter (accepts env k) := by
  rw [Properties.getProperty_eq, Properties.getProperty_eq, Std.ExtTreeMap.getElem?_filter']
  cases properties._kvMap[k]? with
  | none => rfl
  | some value =>
    rw [Option.filter_some, Option.bind_some, keeps]
    cases hv : value.getValue .string with
    | none => rfl
    | some v =>
      rw [Option.filter_some]
      show Option.bind (if accepts env k v = true then some value else none) _ = _
      split
      · exact hv
      · rfl

/-- What is logged for an entry. -/
def rejectionLines (c : KafkaClient C) (k : String) (value : ValueType C) : List LogLine :=
  match value.getValue .string with
  | none => []
  | some v =>
    if accepts env k v then []
    else (doLog env c Err (rejection k v (env.rd_kafka_conf_set (c_str k) (c_str v)).1
      (env.rd_kafka_conf_set (c_str k) (c_str v)).2)).logs

theorem result_doLog (c : KafkaClient C) (level : Int32) (text : String) :
    (doLog env c level text).result = .ok () := by
  rw [doLog]
  split <;> rfl

theorem logs_doLog (c : KafkaClient C) (level : Int32) (text : String) :
    (doLog env c level text).logs =
      if level ≥ 0 ∧ level ≤ c._logLevel ∧ env.hasTarget c._logCb = true then
        [⟨level, logLine c._clientName text⟩]
      else [] := by
  rw [doLog]
  split <;> rfl

/-- **The loop** keeps the entries that are accepted, and logs those that are rejected. -/
theorem setProperties_store {properties : Properties C} (hp : properties.WellTyped)
    (c : KafkaClient C) {props : List (String × ValueType C)}
    (hprops : ∀ kv ∈ props, properties._kvMap[kv.1]? = some kv.2) :
    setProperties env properties c props =
      ⟨props.flatMap fun kv => rejectionLines env c kv.1 kv.2,
        .ok { c with _properties := ⟨store Prod.fst Prod.snd
          (props.filter fun kv => keeps env kv.1 kv.2) c._properties._kvMap⟩ }⟩ := by
  -- the client changes along the list only in the properties kept so far
  induction props generalizing c with
  | nil => rfl
  | cons kv props ih =>
    obtain ⟨k, value⟩ := kv
    have hk : properties._kvMap[k]? = some value := hprops _ List.mem_cons_self
    have hread : properties.getProperty k = value.getValue .string := by
      rw [Properties.getProperty_eq, hk]
      rfl
    have hrest := fun c => ih c fun kv hmem => hprops kv (List.mem_cons_of_mem _ hmem)
    rw [setProperties, hread, List.flatMap_cons, List.filter_cons, keeps, rejectionLines]
    cases hv : value.getValue .string with
    | none =>
      -- a callable is passed over
      exact hrest c
    | some v =>
      dsimp only
      have hput : putOrThrow c._properties k value = .ok ⟨c._properties._kvMap.insert k value⟩ :=
        putOrThrow_of_belongs (hp k value hk)
      by_cases hprivate : k ∈ PRIVATE_PROPERTY_KEYS
      · have haccepts : accepts env k v = true := by simp [accepts, hprivate]
        rw [if_pos hprivate, hput, if_pos haccepts, if_pos haccepts]
        show (setProperties env properties _ props) = _
        rw [hrest]
        rfl
      · rw [if_neg hprivate]
        rcases hset : env.rd_kafka_conf_set (c_str k) (c_str v) with ⟨result, errInfo⟩
        have hreject (hne : result ≠ .RD_KAFKA_CONF_OK) : ¬ accepts env k v = true := by
          simp [accepts, hprivate, hset, hne]
        -- the two ways to be rejected are logged alike
        cases result with
        | RD_KAFKA_CONF_OK =>
          have haccepts : accepts env k v = true := by simp [accepts, hset]
          rw [hput, if_pos haccepts, if_pos haccepts]
          show (setProperties env properties _ props) = _
          rw [hrest]
          rfl
        | RD_KAFKA_CONF_UNKNOWN =>
          rw [if_neg (hreject (by decide)), if_neg (hreject (by decide))]
          show (doLog env c Err _ >>= fun _ => setProperties env properties c props) = _
          rw [bind_of_ok (result_doLog env c Err _), hrest]
        | RD_KAFKA_CONF_INVALID =>
          rw [if_neg (hreject (by decide)), if_neg (hreject (by decide))]
          show (doLog env c Err _ >>= fun _ => setProperties env properties c props) = _
          rw [bind_of_ok (result_doLog env c Err _), hrest]

/-- **The whole loop**, from a client without properties. -/
theorem setProperties_eq {properties : Properties C} (hp : properties.WellTyped)
    {c : KafkaClient C} (hc : c._properties = {}) :
    setProperties env properties c properties.map.toList =
      ⟨properties._kvMap.toList.flatMap fun kv => rejectionLines env c kv.1 kv.2,
        .ok { c with _properties := ⟨properties._kvMap.filter (keeps env)⟩ }⟩ := by
  have hprops : ∀ kv ∈ properties.map.toList, properties._kvMap[kv.1]? = some kv.2 :=
    fun kv hmem => Std.ExtTreeMap.mem_toList_iff_getElem?_eq_some.mp hmem
  rw [setProperties_store env hp c hprops, hc]
  exact congrArg (fun m => (⟨_, .ok { c with _properties := ⟨m⟩ }⟩ : Construct (KafkaClient C)))
    (store_toList_filter properties._kvMap (keeps env))

/-! ## §7. After the loop. -/

/-- What has to be in order for the client to start. -/
structure Startable (properties : Properties C) : Prop where
  interceptors : properties.contains "interceptors" = true →
    env.rd_kafka_conf_interceptor_add_on_new = RD_KAFKA_RESP_ERR_NO_ERROR
  created : env.rd_kafka_last_error = RD_KAFKA_RESP_ERR_NO_ERROR
  brokers : ∃ brokers, properties.getProperty Config.BOOTSTRAP_SERVERS = some brokers ∧
    env.rd_kafka_brokers_add (c_str brokers) ≠ 0

/-- What logging and `properties()` depend on. -/
def SameFront (c c' : KafkaClient C) : Prop :=
  c'._properties = c._properties ∧ c'._clientName = c._clientName ∧ c'._logLevel = c._logLevel ∧
    c'._logCb = c._logCb

theorem throwIfRespErr_cases (respErr : RespErr) :
    (respErr = RD_KAFKA_RESP_ERR_NO_ERROR ∧
        (throwIfWithError (Error.ofRespErr respErr)).mapError CppException.kafkaException =
          .ok ()) ∨
      (respErr ≠ RD_KAFKA_RESP_ERR_NO_ERROR ∧
        ∃ e, (throwIfWithError (Error.ofRespErr respErr)).mapError CppException.kafkaException =
          .error e) := by
  by_cases h : respErr = RD_KAFKA_RESP_ERR_NO_ERROR
  · exact Or.inl ⟨h, by rw [throwIfWithError_ok_iff.mpr h]; rfl⟩
  · exact Or.inr ⟨h, _, by rw [throwIfWithError_error_iff.mpr ⟨h, rfl⟩]; rfl⟩

/-- Saving the callbacks fails only with the interceptors. -/
theorem saveCallbacks_cases {properties : Properties C} (hp : properties.WellTyped)
    (c : KafkaClient C) :
    ((properties.contains "interceptors" = true →
          env.rd_kafka_conf_interceptor_add_on_new = RD_KAFKA_RESP_ERR_NO_ERROR) ∧
        ∃ c', saveCallbacks env c properties = .ok c' ∧ SameFront c c') ∨
      (¬ (properties.contains "interceptors" = true →
          env.rd_kafka_conf_interceptor_add_on_new = RD_KAFKA_RESP_ERR_NO_ERROR) ∧
        ∃ e, saveCallbacks env c properties = .error e) := by
  -- what is under a callable's key is that callable, so only the interceptors can fail
  have hsave : ∀ T : Kind, T ≠ .string → ∀ old : Option (T.type C), ∃ cb,
      getIfContained properties T T.expectedKey old = .ok cb := by
    intro T hT old
    rw [getIfContained]
    by_cases h : properties.contains T.expectedKey = true
    · obtain ⟨value, -, hthrow⟩ := getOrThrow_of_contains hp hT h
      exact ⟨some value, by rw [if_pos h, hthrow]; rfl⟩
    · exact ⟨old, if_neg h⟩
  obtain ⟨stats, hstats⟩ := hsave .stats (by decide) c._statsCb
  obtain ⟨error, herror⟩ := hsave .error (by decide) c._errorCb
  obtain ⟨oauth, hoauth⟩ := hsave .oauthbearerTokenRefresh (by decide) c._oauthbearerTokenRefreshCb
  obtain ⟨interceptors, hinterceptors⟩ := hsave .interceptors (by decide) c._interceptors
  simp only [Kind.expectedKey] at hstats herror hoauth hinterceptors
  rw [saveCallbacks, hstats, herror, hoauth, hinterceptors, addInterceptors]
  by_cases h : properties.contains "interceptors" = true
  · rw [if_pos h]
    rcases throwIfRespErr_cases env.rd_kafka_conf_interceptor_add_on_new with
      ⟨hok, hthrow⟩ | ⟨hbad, e, hthrow⟩
    · refine Or.inl ⟨fun _ => hok, ?_⟩
      rw [hthrow]
      exact ⟨_, rfl, rfl, rfl, rfl, rfl⟩
    · refine Or.inr ⟨fun himp => hbad (himp h), e, ?_⟩
      rw [hthrow]
      rfl
  · refine Or.inl ⟨fun h' => absurd h' h, ?_⟩
    rw [if_neg h]
    exact ⟨_, rfl, rfl, rfl, rfl, rfl⟩

/-- **Starting** succeeds exactly when everything is in order, whatever the client. -/
theorem finish_cases {properties : Properties C} (hp : properties.WellTyped)
    (c : KafkaClient C) :
    (Startable env properties ∧ ∃ c', finish env c properties = .ok c' ∧ SameFront c c') ∨
      (¬ Startable env properties ∧ ∃ e, finish env c properties = .error e) := by
  rw [finish]
  rcases saveCallbacks_cases env hp c with ⟨hint, c', hsave, hfront⟩ | ⟨hint, e, hsave⟩
  · rw [hsave]
    show (_ ∧ ∃ c'', start env c' properties = .ok c'' ∧ _) ∨
      (_ ∧ ∃ e, start env c' properties = .error e)
    rw [start]
    -- first whether there is a handle, then whether it has a broker
    rcases throwIfRespErr_cases env.rd_kafka_last_error with ⟨hok, hthrow⟩ | ⟨hbad, e, hthrow⟩
    · rw [hthrow]
      cases hbrokers : properties.getProperty Config.BOOTSTRAP_SERVERS with
      | none =>
        refine Or.inr ⟨fun hs => ?_, _, rfl⟩
        obtain ⟨brokers, hsome, -⟩ := hs.brokers
        rw [hbrokers] at hsome
        cases hsome
      | some brokers =>
        by_cases hadd : env.rd_kafka_brokers_add (c_str brokers) = 0
        · refine Or.inr ⟨fun hs => ?_, .invalidArg _, if_pos hadd⟩
          obtain ⟨brokers', hsome, hne⟩ := hs.brokers
          rw [hbrokers] at hsome
          exact hne (Option.some.inj hsome ▸ hadd)
        · exact Or.inl ⟨⟨hint, hok, brokers, hbrokers, hadd⟩, _, if_neg hadd, hfront⟩
    · refine Or.inr ⟨fun hs => hbad hs.created, e, ?_⟩
      rw [hthrow]
      rfl
  · rw [hsave]
    exact Or.inr ⟨fun hs => hint hs.interceptors, e, rfl⟩

/-! ## §8. The constructor. -/

/-- The client as it enters the loop. -/
def settings (clientType : ClientType) (properties : Properties C) (_logLevel : Int32)
    (_enableManualEventsPoll : Bool) : KafkaClient C :=
  { _clientId := (properties.getProperty Config.CLIENT_ID).getD ""
    _clientName := nameOf clientType properties
    _logCb := logCallbackOf env properties
    _logLevel, _enableManualEventsPoll }

section Settings

variable (clientType : ClientType) (properties : Properties C) (level : Int32) (manual : Bool)

@[simp] theorem settings_clientName :
    (settings env clientType properties level manual)._clientName = nameOf clientType properties :=
  rfl

@[simp] theorem settings_logLevel :
    (settings env clientType properties level manual)._logLevel = level := rfl

@[simp] theorem settings_logCb :
    (settings env clientType properties level manual)._logCb = logCallbackOf env properties := rfl

end Settings

/-- What the constructor asks of the properties and of librdkafka. -/
structure Constructible (properties : Properties C) : Prop where
  level : ∃ level, logLevelOf properties = .ok level
  manual : ∃ manual, manualEventsPollOf properties = .ok manual
  startable : Startable env properties

theorem contains_congr {properties properties' : Properties C} {key : String}
    (h : properties._kvMap[key]? = properties'._kvMap[key]?) :
    properties.contains key = properties'.contains key := by
  rw [Properties.contains, Properties.contains, Std.ExtTreeMap.contains_eq_isSome_getElem?,
    Std.ExtTreeMap.contains_eq_isSome_getElem?, h]

/-- A change elsewhere, and to a good log level, does no harm. -/
theorem Constructible.congr {properties properties' : Properties C}
    (h : Constructible env properties)
    (hlevel : ∃ level, logLevelOf properties' = .ok level)
    (hmanual : properties'.getProperty Config.ENABLE_MANUAL_EVENTS_POLL =
      properties.getProperty Config.ENABLE_MANUAL_EVENTS_POLL)
    (hservers : properties'.getProperty Config.BOOTSTRAP_SERVERS =
      properties.getProperty Config.BOOTSTRAP_SERVERS)
    (hinterceptors : properties'.contains "interceptors" = true →
      properties.contains "interceptors" = true) : Constructible env properties' := by
  refine ⟨hlevel, ?_, fun hc => h.startable.interceptors (hinterceptors hc),
    h.startable.created, ?_⟩
  · rw [manualEventsPollOf, hmanual]
    exact h.manual
  · rw [hservers]
    exact h.startable.brokers

/-- With good settings the loop is reached, and its lines are logged. -/
theorem construct_of_settings {properties : Properties C} (hp : properties.WellTyped)
    (clientType : ClientType) {level : Int32} {manual : Bool}
    (hlevel : logLevelOf properties = .ok level)
    (hmanual : manualEventsPollOf properties = .ok manual) :
    construct env clientType properties =
      ⟨properties._kvMap.toList.flatMap fun kv =>
          rejectionLines env (settings env clientType properties level manual) kv.1 kv.2,
        finish env { settings env clientType properties level manual with
          _properties := ⟨properties._kvMap.filter (keeps env)⟩ } properties⟩ := by
  have hread : readSettings env clientType properties =
      .ok (settings env clientType properties level manual) := by
    rw [readSettings_eq env hp, hlevel, hmanual]
    rfl
  rw [construct, hread]
  show (setProperties env properties (settings env clientType properties level manual)
    properties.map.toList >>= fun c => liftM (finish env c properties)) = _
  have hloop := setProperties_eq env hp
    (c := settings env clientType properties level manual) rfl
  rw [bind_of_ok (congrArg WithLog.result hloop), congrArg WithLog.logs hloop, logs_liftM,
    List.append_nil, result_liftM]

/-- Without them nothing is logged. -/
theorem construct_of_no_settings {properties : Properties C} (hp : properties.WellTyped)
    (clientType : ClientType)
    (h : ¬ ((∃ level, logLevelOf properties = .ok level) ∧
      ∃ manual, manualEventsPollOf properties = .ok manual)) :
    ∃ e, construct env clientType properties = ⟨[], .error e⟩ := by
  have hread : ∃ e, readSettings env clientType properties = .error e := by
    rw [readSettings_eq env hp]
    cases hlevel : logLevelOf properties with
    | error e => exact ⟨e, rfl⟩
    | ok level =>
      cases hmanual : manualEventsPollOf properties with
      | error e => exact ⟨e, rfl⟩
      | ok manual => exact absurd ⟨⟨level, hlevel⟩, manual, hmanual⟩ h
  obtain ⟨e, hread⟩ := hread
  refine ⟨e, ?_⟩
  rw [construct, hread]
  rfl

/-- A client as the constructor leaves it. -/
structure Constructed (clientType : ClientType) (properties : Properties C) (c : KafkaClient C) :
    Prop where
  properties_eq : c._properties = ⟨properties._kvMap.filter (keeps env)⟩
  name_eq : c._clientName = nameOf clientType properties
  level_eq : logLevelOf properties = .ok c._logLevel
  logCb_eq : c._logCb = logCallbackOf env properties

/-- **The constructor** returns exactly when everything is in order. -/
theorem construct_cases {properties : Properties C} (hp : properties.WellTyped)
    (clientType : ClientType) :
    (Constructible env properties ∧
        ∃ c, (construct env clientType properties).result = .ok c ∧
          Constructed env clientType properties c) ∨
      (¬ Constructible env properties ∧
        ∃ e, (construct env clientType properties).result = .error e) := by
  by_cases hset : (∃ level, logLevelOf properties = .ok level) ∧
      ∃ manual, manualEventsPollOf properties = .ok manual
  · obtain ⟨⟨level, hlevel⟩, manual, hmanual⟩ := hset
    rw [construct_of_settings env hp clientType hlevel hmanual]
    rcases finish_cases env hp { settings env clientType properties level manual with
        _properties := ⟨properties._kvMap.filter (keeps env)⟩ } with
      ⟨hstart, c, hfinish, hprops, hname, hlev, hcb⟩ | ⟨hstart, e, hfinish⟩
    · exact Or.inl ⟨⟨⟨level, hlevel⟩, ⟨manual, hmanual⟩, hstart⟩, c, hfinish, hprops, hname,
        hlevel.trans (congrArg Except.ok hlev.symm), hcb⟩
    · exact Or.inr ⟨fun h => hstart h.startable, e, hfinish⟩
  · obtain ⟨e, he⟩ := construct_of_no_settings env hp clientType hset
    exact Or.inr ⟨fun h => hset ⟨h.level, h.manual⟩, e, congrArg WithLog.result he⟩

end KafkaClient

/-! ## §9. An agreeable world. -/

/-- Callbacks that there is nothing to say about. -/
abbrev plainTypes : ClientTypes := ⟨Unit, Unit, Unit, Unit, Unit, fun _ => ""⟩

/-- librdkafka accepts everything, and every line is logged. -/
def agreeable : Environment plainTypes where
  DefaultLogger := ()
  hasTarget _ := true
  rd_kafka_conf_set _ _ := (.RD_KAFKA_CONF_OK, c_str "")
  rd_kafka_conf_interceptor_add_on_new := RD_KAFKA_RESP_ERR_NO_ERROR
  rd_kafka_last_error := RD_KAFKA_RESP_ERR_NO_ERROR
  rd_kafka_brokers_add _ := 1
  rd_kafka_poll_set_consumer := RD_KAFKA_RESP_ERR_NO_ERROR

/-- Properties that name a broker. -/
def localhost : Properties plainTypes :=
  Properties.withString {} Config.BOOTSTRAP_SERVERS "localhost:9092"

theorem wellTyped_localhost : localhost.WellTyped :=
  Properties.wellTyped_empty.withString (by decide) _

end ModernCppKafka.Clients
