/-
  ModernCppKafka.Clients.Secrets — what the log of a client's construction tells of its secrets.

  `Properties::toString`, which the constructors log in the end, shows `*` for the value of a
  sensitive key; the line for a property that `rd_kafka_conf_set` rejects shows the value.  Two
  properties that differ in secrets only are compared by what is logged.

  Main results:
    * `toString_eq`       — the text of the properties keeps the secrets;
    * `client_logs_eq_iff` — the loop does as far as it does not print them;
    * `logs_eq_iff`       — and so, the constructors of producers and consumers.
-/
import ModernCppKafka.Clients.KafkaConsumer
import ModernCppKafka.Clients.KafkaProducer
import ModernCppKafka.Lib.PairedMaps

namespace ModernCppKafka.Clients

open ModernCppKafka.Lib.Logged ModernCppKafka.Lib.Logged.WithLog ModernCppKafka.Lib.PairedMaps
open Properties (isSensitive)

variable {C : ClientTypes} {env : Environment C}

/-! ## §1. Properties that differ in secrets. -/

/-- The same keys, and the same values but for the sensitive keys. -/
structure SameButSecrets (properties properties' : Properties C) : Prop where
  keys : SameKeys properties._kvMap properties'._kvMap
  plain : ∀ k, isSensitive k = false → properties._kvMap[k]? = properties'._kvMap[k]?

/-- `rd_kafka_conf_set` goes by the key. -/
def KeyOnly (env : Environment C) : Prop :=
  ∀ k v v', env.rd_kafka_conf_set k v = env.rd_kafka_conf_set k v'

namespace SameButSecrets

variable {properties properties' : Properties C}

theorem symm (h : SameButSecrets properties properties') : SameButSecrets properties' properties :=
  ⟨fun k => (h.keys k).symm, fun k hk => (h.plain k hk).symm⟩

theorem getProperty_eq (h : SameButSecrets properties properties') {k : String}
    (hk : isSensitive k = false) : properties.getProperty k = properties'.getProperty k := by
  rw [Properties.getProperty_eq, Properties.getProperty_eq, h.plain k hk]

theorem withString (h : SameButSecrets properties properties') (key value : String) :
    SameButSecrets (properties.withString key value) (properties'.withString key value) := by
  refine ⟨fun k => ?_, fun k hk => ?_⟩
  · rw [Properties.getElem?_withString, Properties.getElem?_withString]
    split
    · rfl
    · exact h.keys k
  · rw [Properties.getElem?_withString, Properties.getElem?_withString, h.plain k hk]

theorem withDefault (h : SameButSecrets properties properties') {key : String}
    (hkey : isSensitive key = false) (value : String) :
    SameButSecrets (properties.withDefault key value) (properties'.withDefault key value) := by
  rw [Properties.withDefault, Properties.withDefault, h.getProperty_eq hkey]
  split
  · exact h
  · exact h.withString key value

theorem remove (h : SameButSecrets properties properties') (key : String) :
    SameButSecrets (properties.remove key) (properties'.remove key) := by
  refine ⟨fun k => ?_, fun k hk => ?_⟩
  · rw [Properties.getElem?_remove, Properties.getElem?_remove]
    split
    · rfl
    · exact h.keys k
  · rw [Properties.getElem?_remove, Properties.getElem?_remove, h.plain k hk]

end SameButSecrets

/-- A secret is a string. -/
theorem exists_getValue_of_sensitive {properties : Properties C} (hp : properties.WellTyped)
    {k : String} (hk : isSensitive k = true) {value : ValueType C}
    (h : properties._kvMap[k]? = some value) : ∃ v, value.getValue .string = some v := by
  have hplain : ∀ T : Kind, isSensitive T.expectedKey = false := by
    intro T
    cases T <;> decide
  by_cases hstring : value.kind = .string
  · exact ⟨_, dif_pos hstring⟩
  · have hbelongs := hp k value h
    rw [Properties.Belongs, if_neg hstring] at hbelongs
    rw [hbelongs, hplain] at hk
    cases hk

/-- Two secrets under a key, or the same value. -/
theorem SameButSecrets.value_cases {properties properties' : Properties C}
    (hp : properties.WellTyped) (hp' : properties'.WellTyped)
    (h : SameButSecrets properties properties') {k : String} {value value' : ValueType C}
    (hk : properties._kvMap[k]? = some value) (hk' : properties'._kvMap[k]? = some value') :
    (isSensitive k = false ∧ value = value') ∨
      (isSensitive k = true ∧
        ∃ v v', value.getValue .string = some v ∧ value'.getValue .string = some v') := by
  cases hsens : isSensitive k with
  | false => exact Or.inl ⟨rfl, Option.some.inj (hk.symm.trans ((h.plain k hsens).trans hk'))⟩
  | true =>
    obtain ⟨v, hv⟩ := exists_getValue_of_sensitive hp hsens hk
    obtain ⟨v', hv'⟩ := exists_getValue_of_sensitive hp' hsens hk'
    exact Or.inr ⟨rfl, v, v', hv, hv'⟩

/-- What is accepted does not depend on the secrets. -/
theorem accepts_congr (hkey : KeyOnly env) (k v v' : String) :
    KafkaClient.accepts env k v = KafkaClient.accepts env k v' := by
  rw [KafkaClient.accepts, KafkaClient.accepts, hkey (c_str k) (c_str v) (c_str v')]

/-- Nor does which entries are kept. -/
theorem SameButSecrets.filter (hkey : KeyOnly env) {properties properties' : Properties C}
    (hp : properties.WellTyped) (hp' : properties'.WellTyped)
    (h : SameButSecrets properties properties') :
    SameButSecrets ⟨properties._kvMap.filter (KafkaClient.keeps env)⟩
      ⟨properties'._kvMap.filter (KafkaClient.keeps env)⟩ := by
  refine ⟨fun k => ?_, fun k hk => ?_⟩
  · have hkeys := h.keys k
    rw [Std.ExtTreeMap.getElem?_filter', Std.ExtTreeMap.getElem?_filter']
    cases hvalue : properties._kvMap[k]? with
    | none =>
      rw [hvalue] at hkeys
      rw [Option.isSome_eq_false_iff.mp hkeys.symm |> Option.isNone_iff_eq_none.mp]
    | some value =>
      rw [hvalue] at hkeys
      obtain ⟨value', hvalue'⟩ := Option.isSome_iff_exists.mp hkeys.symm
      have hkeeps : KafkaClient.keeps env k value = KafkaClient.keeps env k value' := by
        rcases h.value_cases hp hp' hvalue hvalue' with ⟨-, rfl⟩ | ⟨-, v, v', hv, hv'⟩
        · rfl
        · rw [KafkaClient.keeps, KafkaClient.keeps, hv, hv']
          exact accepts_congr hkey k v v'
      rw [hvalue', Option.filter_some, Option.filter_some, hkeeps]
      split <;> rfl
  · rw [Std.ExtTreeMap.getElem?_filter', Std.ExtTreeMap.getElem?_filter', h.plain k hk]

/-! ## §2. The text of the properties. -/

/-- An entry as `toString` shows it. -/
def masked (kv : String × ValueType C) : String × String :=
  (kv.1, if isSensitive kv.1 then "*" else kv.2.toString)

/-- **The summary** keeps the secrets. -/
theorem toString_eq {properties properties' : Properties C}
    (h : SameButSecrets properties properties') : properties.toString = properties'.toString := by
  have hmasked : properties._kvMap.toList.map masked = properties'._kvMap.toList.map masked := by
    refine h.keys.map_toList_eq fun k v v' hk hk' => ?_
    rw [masked, masked]
    cases hsens : isSensitive k with
    | true => rfl
    | false =>
      rw [h.plain k hsens] at hk
      rw [Option.some.inj (hk.symm.trans hk')]
  have hfold : ∀ p : Properties C, p.toString =
      (p._kvMap.toList.map masked).foldl (fun ret kx =>
        ret ++ (if ret.isEmpty then "" else "|") ++ kx.1 ++ "=" ++ kx.2) "" := by
    intro p
    rw [List.foldl_map]
    rfl
  rw [hfold, hfold, hmasked]

/-! ## §3. A rejected secret. -/

/-- What is printed before the value that was rejected. -/
def beforeValue (name k : String) : String :=
  (c_str name).val ++ " failed to be initialized with property[" ++ (c_str k).val ++ ":"

/-- What is printed after it. -/
def afterValue (result : RkConfRes) (errInfo : CString) : String :=
  "], result[" ++ toString result.toInt ++ "]: " ++ errInfo.val

/-- The two values, each with the rest of its line, agree on the characters that the line has room
for. -/
def PrintedAlike (name k v v' : String) (set : RkConfRes × CString) : Prop :=
  let room := LOG_BUFFER_SIZE - 1 - (beforeValue name k).length
  ((c_str v).val ++ afterValue set.1 set.2).toList.take room =
    ((c_str v').val ++ afterValue set.1 set.2).toList.take room

theorem nulFree_rejection (k v : String) (result : RkConfRes) (errInfo : CString) :
    NulFree (KafkaClient.rejection k v result errInfo) := by
  have hresult : NulFree (toString result.toInt) := by
    cases result <;> decide +kernel
  unfold KafkaClient.rejection
  refine nulFree_append (nulFree_append (nulFree_append (nulFree_append (nulFree_append
    (nulFree_append (nulFree_append ?_ (c_str k).2) ?_) (c_str v).2) ?_) hresult) ?_) errInfo.2 <;>
    decide +kernel

/-- The line for a rejected property, with its value in the middle. -/
theorem logLine_rejection (name k v : String) (result : RkConfRes) (errInfo : CString) :
    (logLine name (KafkaClient.rejection k v result errInfo)).toList =
      ((beforeValue name k).toList ++
        ((c_str v).val ++ afterValue result errInfo).toList).take (LOG_BUFFER_SIZE - 1) := by
  have hspace : ' ' :: "failed to be initialized with property[".toList =
      " failed to be initialized with property[".toList := by decide +kernel
  rw [logLine, c_str_of_nulFree (nulFree_rejection k v result errInfo), String.toList_ofList]
  unfold KafkaClient.rejection beforeValue afterValue
  simp only [String.toList_append, List.append_assoc, ← hspace, List.cons_append]

/-- **Alike** is what the lines look. -/
theorem logLine_rejection_eq_iff (name k v v' : String) (set : RkConfRes × CString) :
    logLine name (KafkaClient.rejection k v set.1 set.2) =
        logLine name (KafkaClient.rejection k v' set.1 set.2) ↔
      PrintedAlike name k v v' set := by
  rw [← String.toList_inj, logLine_rejection, logLine_rejection, List.take_append,
    List.take_append, List.append_cancel_left_eq, String.length_toList, PrintedAlike]

/-! ## §4. The base class. -/

/-- The loop does not tell the secrets apart: it is not reached, or errors are not logged, or of
each secret that is rejected it prints what it prints of the other. -/
def Discreet (env : Environment C) (clientType : ClientType)
    (properties properties' : Properties C) : Prop :=
  ∀ level manual, KafkaClient.logLevelOf properties = .ok level →
    KafkaClient.manualEventsPollOf properties = .ok manual →
    Err ≤ level → env.hasTarget (KafkaClient.logCallbackOf env properties) = true →
    ∀ k v v', isSensitive k = true → properties.getProperty k = some v →
      properties'.getProperty k = some v' →
      (env.rd_kafka_conf_set (c_str k) (c_str v)).1 ≠ .RD_KAFKA_CONF_OK →
      PrintedAlike (KafkaClient.nameOf clientType properties) k v v'
        (env.rd_kafka_conf_set (c_str k) (c_str v))

section Rejected

variable (hkey : KeyOnly env) (c : KafkaClient C) {k : String} {value value' : ValueType C}
  {v v' : String} (hv : value.getValue .string = some v) (hv' : value'.getValue .string = some v')

include hkey hv hv'

/-- As many lines for one secret as for the other. -/
theorem length_rejectionLines :
    (KafkaClient.rejectionLines env c k value).length =
      (KafkaClient.rejectionLines env c k value').length := by
  rw [KafkaClient.rejectionLines, KafkaClient.rejectionLines, hv, hv']
  dsimp only
  rw [accepts_congr hkey k v v', KafkaClient.logs_doLog, KafkaClient.logs_doLog]
  split
  · rfl
  · split
    · rw [List.length_singleton, List.length_singleton]
    · rfl

theorem rejectionLines_eq_iff (hk : isSensitive k = true) :
    KafkaClient.rejectionLines env c k value = KafkaClient.rejectionLines env c k value' ↔
      (Err ≤ c._logLevel → env.hasTarget c._logCb = true →
        (env.rd_kafka_conf_set (c_str k) (c_str v)).1 ≠ .RD_KAFKA_CONF_OK →
        PrintedAlike c._clientName k v v' (env.rd_kafka_conf_set (c_str k) (c_str v))) := by
  have hpublic : k ∉ KafkaClient.PRIVATE_PROPERTY_KEYS := by
    intro hmem
    have hplain : ∀ k ∈ KafkaClient.PRIVATE_PROPERTY_KEYS, isSensitive k = false := by decide
    rw [hplain k hmem] at hk
    cases hk
  rw [KafkaClient.rejectionLines, KafkaClient.rejectionLines, hv, hv']
  dsimp only
  rw [accepts_congr hkey k v' v, hkey (c_str k) (c_str v') (c_str v), KafkaClient.logs_doLog,
    KafkaClient.logs_doLog]
  -- accepted, or rejected and logged, or rejected and not
  by_cases hset : (env.rd_kafka_conf_set (c_str k) (c_str v)).1 = .RD_KAFKA_CONF_OK
  · have haccepts : KafkaClient.accepts env k v = true := decide_eq_true (Or.inr hset)
    rw [if_pos haccepts, if_pos haccepts]
    exact iff_of_true rfl fun _ _ hne => absurd hset hne
  · have hrejects : ¬ KafkaClient.accepts env k v = true := by
      simp [KafkaClient.accepts, hpublic, hset]
    rw [if_neg hrejects, if_neg hrejects]
    by_cases hlogged : Err ≥ 0 ∧ Err ≤ c._logLevel ∧ env.hasTarget c._logCb = true
    · rw [if_pos hlogged, if_pos hlogged, List.singleton_inj, LogLine.mk.injEq]
      rw [logLine_rejection_eq_iff]
      exact ⟨fun h _ _ _ => h.2, fun h => ⟨rfl, h hlogged.2.1 hlogged.2.2 hset⟩⟩
    · rw [if_neg hlogged, if_neg hlogged]
      exact iff_of_true rfl fun hlevel hcb _ => absurd ⟨by decide, hlevel, hcb⟩ hlogged

end Rejected

/-- The clients log alike from here on. -/
structure SameLog (c c' : KafkaClient C) : Prop where
  properties : SameButSecrets c._properties c'._properties
  name : c._clientName = c'._clientName
  level : c._logLevel = c'._logLevel
  logCb : c._logCb = c'._logCb

section Client

variable {properties properties' : Properties C}

/-- What the constructor reads for itself is no secret. -/
theorem settings_eq (env : Environment C) (h : SameButSecrets properties properties')
    (clientType : ClientType) :
    KafkaClient.logLevelOf properties = KafkaClient.logLevelOf properties' ∧
      KafkaClient.manualEventsPollOf properties = KafkaClient.manualEventsPollOf properties' ∧
      KafkaClient.nameOf clientType properties = KafkaClient.nameOf clientType properties' ∧
      KafkaClient.logCallbackOf env properties = KafkaClient.logCallbackOf env properties' ∧
      ∀ level manual, KafkaClient.settings env clientType properties level manual =
        KafkaClient.settings env clientType properties' level manual := by
  have hid := h.getProperty_eq (by decide : isSensitive Config.CLIENT_ID = false)
  have hname : KafkaClient.nameOf clientType properties =
      KafkaClient.nameOf clientType properties' := by
    rw [KafkaClient.nameOf, KafkaClient.nameOf, hid]
  have hcb : KafkaClient.logCallbackOf env properties =
      KafkaClient.logCallbackOf env properties' := by
    rw [KafkaClient.logCallbackOf, KafkaClient.logCallbackOf, Properties.get, Properties.get,
      h.plain "log_cb" (by decide)]
  refine ⟨?_, ?_, hname, hcb, fun level manual => ?_⟩
  · rw [KafkaClient.logLevelOf, KafkaClient.logLevelOf, h.getProperty_eq (by decide)]
  · rw [KafkaClient.manualEventsPollOf, KafkaClient.manualEventsPollOf,
      h.getProperty_eq (by decide)]
  · rw [KafkaClient.settings, KafkaClient.settings, hid, hname, hcb]

theorem SameButSecrets.constructible (h : SameButSecrets properties properties')
    (hc : KafkaClient.Constructible env properties) :
    KafkaClient.Constructible env properties' := by
  refine hc.congr env ?_ (h.symm.getProperty_eq (by decide)) (h.symm.getProperty_eq (by decide))
    fun hinterceptors => ?_
  · rw [← (settings_eq env h .AdminClient).1]
    exact hc.level
  · rw [← hinterceptors]
    exact KafkaClient.contains_congr (h.plain _ (by decide))

variable (hkey : KeyOnly env) (hp : properties.WellTyped) (hp' : properties'.WellTyped)
  (h : SameButSecrets properties properties') (clientType : ClientType)

include hkey hp hp' h

/-- **The loop**, exactly. -/
theorem client_logs_eq_iff :
    (KafkaClient.construct env clientType properties).logs =
        (KafkaClient.construct env clientType properties').logs ↔
      Discreet env clientType properties properties' := by
  obtain ⟨hlevel, hmanual, hname, hcb, hsettings⟩ := settings_eq env h clientType
  by_cases hset : (∃ level, KafkaClient.logLevelOf properties = .ok level) ∧
      ∃ manual, KafkaClient.manualEventsPollOf properties = .ok manual
  · obtain ⟨⟨level, hl⟩, manual, hm⟩ := hset
    rw [KafkaClient.construct_of_settings env hp clientType hl hm,
      KafkaClient.construct_of_settings env hp' clientType (hlevel.symm.trans hl)
        (hmanual.symm.trans hm), ← hsettings]
    have hlines {k : String} {value value' : ValueType C} {v v' : String}
        (hsens : isSensitive k = true) (hv : value.getValue .string = some v)
        (hv' : value'.getValue .string = some v') :=
      rejectionLines_eq_iff hkey (KafkaClient.settings env clientType properties level manual) hv
        hv' hsens
    simp only [KafkaClient.settings_clientName, KafkaClient.settings_logLevel,
      KafkaClient.settings_logCb] at hlines
    dsimp only
    -- the lines come entry by entry, as many for the one as for the other
    rw [h.keys.flatMap_toList_eq_iff]
    · constructor
      · intro hall level' manual' hl' _ herr hlogged k v v' hsens hv hv' hne
        obtain rfl := Except.ok.inj (hl.symm.trans hl')
        rw [Properties.getProperty_eq] at hv hv'
        obtain ⟨value, hk, hv⟩ := Option.bind_eq_some_iff.mp hv
        obtain ⟨value', hk', hv'⟩ := Option.bind_eq_some_iff.mp hv'
        exact (hlines hsens hv hv').mp (hall k value value' hk hk') herr hlogged hne
      · intro hdiscreet k value value' hk hk'
        rcases h.value_cases hp hp' hk hk' with ⟨-, rfl⟩ | ⟨hsens, v, v', hv, hv'⟩
        · rfl
        · refine (hlines hsens hv hv').mpr fun herr hlogged hne => ?_
          refine hdiscreet level manual hl hm herr hlogged k v v' hsens ?_ ?_ hne
          · rw [Properties.getProperty_eq, hk]
            exact hv
          · rw [Properties.getProperty_eq, hk']
            exact hv'
    · intro k value value' hk hk'
      rcases h.value_cases hp hp' hk hk' with ⟨-, rfl⟩ | ⟨-, v, v', hv, hv'⟩
      · rfl
      · exact length_rejectionLines hkey _ hv hv'
  · obtain ⟨e, he⟩ := KafkaClient.construct_of_no_settings env hp clientType hset
    obtain ⟨e', he'⟩ := KafkaClient.construct_of_no_settings env hp' clientType
      (hlevel ▸ hmanual ▸ hset)
    rw [he, he']
    exact iff_of_true rfl fun level manual hl hm => absurd ⟨⟨level, hl⟩, manual, hm⟩ hset

/-- **What follows** finds the same client but for the secrets, or none. -/
theorem client_agree :
    Agree SameLog (KafkaClient.construct env clientType properties)
      (KafkaClient.construct env clientType properties') := by
  have hiff : KafkaClient.Constructible env properties ↔
      KafkaClient.Constructible env properties' := ⟨h.constructible, h.symm.constructible⟩
  obtain ⟨hlevel, -, hname, hcb, -⟩ := settings_eq env h clientType
  rcases KafkaClient.construct_cases env hp clientType with
    ⟨hc, c, hok, hfields⟩ | ⟨hnot, e, he⟩
  · rcases KafkaClient.construct_cases env hp' clientType with
      ⟨-, c', hok', hfields'⟩ | ⟨hnot', -⟩
    · refine agree_of_ok hok hok' ⟨?_, ?_, ?_, ?_⟩
      · rw [hfields.properties_eq, hfields'.properties_eq]
        exact SameButSecrets.filter hkey hp hp' h
      · rw [hfields.name_eq, hfields'.name_eq, hname]
      · exact Except.ok.inj (hfields.level_eq.symm.trans (hlevel.trans hfields'.level_eq))
      · rw [hfields.logCb_eq, hfields'.logCb_eq, hcb]
    · exact absurd (hiff.mp hc) hnot'
  · rcases KafkaClient.construct_cases env hp' clientType with ⟨hc', -⟩ | ⟨-, e', he'⟩
    · exact absurd (hiff.mpr hc') hnot
    · exact agree_of_error he he'

end Client

/-! ## §5. The constructors. -/

section Constructors

variable {properties properties' : Properties C}

/-- A line with the summary is the same from clients that log alike. -/
theorem summary_eq {c c' : KafkaClient C} (h : SameLog c c') (head : String) :
    (KafkaClient.doLog env c Notice (head ++ (c_str c._properties.toString).val ++ "]")).logs =
      (KafkaClient.doLog env c' Notice
        (head ++ (c_str c'._properties.toString).val ++ "]")).logs := by
  rw [KafkaClient.logs_doLog, KafkaClient.logs_doLog, toString_eq h.properties, h.name, h.level,
    h.logCb]

theorem SameButSecrets.reformed (h : SameButSecrets properties properties') (random : String) :
    SameButSecrets (KafkaClient.reformed random properties)
      (KafkaClient.reformed random properties') :=
  (h.withDefault (by decide) random).withDefault (by decide) _

theorem SameButSecrets.reformedConsumer (h : SameButSecrets properties properties')
    (random : RandomIds) : SameButSecrets (KafkaConsumer.reformed random properties)
      (KafkaConsumer.reformed random properties') :=
  ((((h.remove _).reformed _).withDefault (by decide) _).withString _ _ |>.withString _ _
    |>.withString _ _)

/-- The producer's checks are about no secrets. -/
theorem producer_validate_agree (h : SameButSecrets properties properties') (random : String) :
    Agree SameButSecrets
      (liftM (KafkaProducer.validateAndReformProperties random properties) : Construct _)
      (liftM (KafkaProducer.validateAndReformProperties random properties') : Construct _) := by
  have hservers := h.getProperty_eq (by decide : isSensitive Config.BOOTSTRAP_SERVERS = false)
  obtain ⟨hpartitioner, hidempotence⟩ := KafkaProducer.checks_congr (fun key hkey =>
    h.getProperty_eq (k := key) (by revert key; decide))
  rcases KafkaProducer.validateAndReformProperties_cases random properties with
    ⟨h₁, h₂, h₃, hok⟩ | ⟨hnot, e, he⟩
  · rcases KafkaProducer.validateAndReformProperties_cases random properties' with
      ⟨-, -, -, hok'⟩ | ⟨hnot', -⟩
    · exact agree_of_ok hok hok' (h.reformed random)
    · exact absurd ⟨hservers ▸ h₁, hpartitioner ▸ h₂, hidempotence ▸ h₃⟩ hnot'
  · rcases KafkaProducer.validateAndReformProperties_cases random properties' with
      ⟨h₁, h₂, h₃, -⟩ | ⟨-, e', he'⟩
    · exact absurd ⟨hservers ▸ h₁, hpartitioner ▸ h₂, hidempotence ▸ h₃⟩ hnot
    · exact agree_of_error he he'

theorem producer_logs_eq_iff (hkey : KeyOnly env) (hp : properties.WellTyped)
    (hp' : properties'.WellTyped) (h : SameButSecrets properties properties') (random : String) :
    (KafkaProducer.construct env random properties).logs =
        (KafkaProducer.construct env random properties').logs ↔
      ∀ q q', KafkaProducer.validateAndReformProperties random properties = .ok q →
        KafkaProducer.validateAndReformProperties random properties' = .ok q' →
        Discreet env .KafkaProducer q q' := by
  rw [KafkaProducer.construct, KafkaProducer.construct,
    (producer_validate_agree h random).logs_lift_bind_eq_iff]
  refine forall₄_congr fun q q' hq hq' => ?_
  obtain rfl := KafkaProducer.eq_reformed_of_validate random hq
  obtain rfl := KafkaProducer.eq_reformed_of_validate random hq'
  have hwell := KafkaClient.wellTyped_reformed random hp
  have hwell' := KafkaClient.wellTyped_reformed random hp'
  rw [← client_logs_eq_iff hkey hwell hwell' (h.reformed random) .KafkaProducer]
  refine (client_agree hkey hwell hwell' (h.reformed random) .KafkaProducer).logs_bind_eq_iff
    fun c c' hsame => ?_
  rw [bind_of_ok (KafkaClient.result_doLog env c _ _),
    bind_of_ok (KafkaClient.result_doLog env c' _ _)]
  simp only [logs_pure, List.append_nil]
  exact summary_eq hsame _

/-- The consumer's are not either. -/
theorem consumer_validate_agree (h : SameButSecrets properties properties') (random : RandomIds) :
    Agree SameButSecrets
      (liftM (KafkaConsumer.validateAndReformProperties random properties) : Construct _)
      (liftM (KafkaConsumer.validateAndReformProperties random properties') : Construct _) := by
  rw [KafkaConsumer.validateAndReformProperties_eq, KafkaConsumer.validateAndReformProperties_eq,
    h.getProperty_eq (by decide : isSensitive Config.BOOTSTRAP_SERVERS = false)]
  split
  · exact agree_of_error rfl rfl
  · exact agree_of_ok rfl rfl (h.reformedConsumer random)

/-- Nor is what the consumer's constructor reads after the base class. -/
theorem pick_eq (h : SameButSecrets properties properties') :
    KafkaConsumer.pickMaxPollRecords properties = KafkaConsumer.pickMaxPollRecords properties' ∧
      KafkaConsumer.pickEnableAutoCommit properties =
        KafkaConsumer.pickEnableAutoCommit properties' := by
  constructor
  · rw [KafkaConsumer.pickMaxPollRecords, KafkaConsumer.pickMaxPollRecords,
      h.getProperty_eq (by decide)]
  · rw [KafkaConsumer.pickEnableAutoCommit, KafkaConsumer.pickEnableAutoCommit,
      h.getProperty_eq (by decide)]

theorem setUp_of_sameButSecrets (h : SameButSecrets properties properties')
    {kept kept' : Properties C} (hkept : SameButSecrets kept kept') {c : KafkaConsumer C}
    (hset : KafkaConsumer.SetUp env properties kept c) :
    KafkaConsumer.SetUp env properties' kept' { c with
      _properties := KafkaConsumer.printedBack kept' c._maxPollRecords c._enableAutoCommit } := by
  obtain ⟨hmax, hauto⟩ := pick_eq h
  refine ⟨hmax.symm.trans hset.maxPoll, hauto.symm.trans hset.autoCommit, ?_, hset.poll, rfl⟩
  rw [← hkept.getProperty_eq (by decide)]
  exact hset.group

theorem setUp_agree (h : SameButSecrets properties properties') {c c' : KafkaClient C}
    (hsame : SameLog c c') :
    Agree (fun a b : KafkaConsumer C => SameLog a.toKafkaClient b.toKafkaClient)
      (liftM (KafkaConsumer.setUp env properties c) : Construct _)
      (liftM (KafkaConsumer.setUp env properties' c') : Construct _) := by
  rcases KafkaConsumer.setUp_cases env properties c with
    ⟨a, ha, hset, hname, hlevel, hcb⟩ | ⟨hnot, e, he⟩
  · rcases KafkaConsumer.setUp_cases env properties' c' with
      ⟨a', ha', hset', hname', hlevel', hcb'⟩ | ⟨hnot', -⟩
    · obtain ⟨hmax, hauto⟩ := pick_eq h
      refine agree_of_ok ha ha' ⟨?_, ?_, ?_, ?_⟩
      · rw [hset.properties_eq, hset'.properties_eq,
          Except.ok.inj (hset.maxPoll.symm.trans (hmax.trans hset'.maxPoll)),
          Except.ok.inj (hset.autoCommit.symm.trans (hauto.trans hset'.autoCommit))]
        exact (hsame.properties.withString _ _).withString _ _
      · rw [hname, hname', hsame.name]
      · rw [hlevel, hlevel', hsame.level]
      · rw [hcb, hcb', hsame.logCb]
    · exact absurd (setUp_of_sameButSecrets h hsame.properties hset) (hnot' _)
  · rcases KafkaConsumer.setUp_cases env properties' c' with ⟨a', -, hset', -⟩ | ⟨-, e', he'⟩
    · exact absurd (setUp_of_sameButSecrets h.symm hsame.properties.symm hset') (hnot _)
    · exact agree_of_error he he'

theorem consumer_logs_eq_iff (hkey : KeyOnly env) (hp : properties.WellTyped)
    (hp' : properties'.WellTyped) (h : SameButSecrets properties properties')
    (random : RandomIds) :
    (KafkaConsumer.construct env random properties).logs =
        (KafkaConsumer.construct env random properties').logs ↔
      ∀ q q', KafkaConsumer.validateAndReformProperties random properties = .ok q →
        KafkaConsumer.validateAndReformProperties random properties' = .ok q' →
        Discreet env .KafkaConsumer q q' := by
  rw [KafkaConsumer.construct, KafkaConsumer.construct,
    (consumer_validate_agree h random).logs_lift_bind_eq_iff]
  refine forall₄_congr fun q q' hq hq' => ?_
  obtain rfl := KafkaConsumer.eq_reformed_of_validate random hq
  obtain rfl := KafkaConsumer.eq_reformed_of_validate random hq'
  have hwell := KafkaConsumer.wellTyped_reformed random hp
  have hwell' := KafkaConsumer.wellTyped_reformed random hp'
  rw [← client_logs_eq_iff hkey hwell hwell' (h.reformedConsumer random) .KafkaConsumer]
  refine (client_agree hkey hwell hwell' (h.reformedConsumer random)
    .KafkaConsumer).logs_bind_eq_iff fun c c' hsame => ?_
  refine ((setUp_agree h hsame).logs_bind_eq_iff fun c c' hsame' => ?_).mpr rfl
  rw [bind_of_ok (KafkaClient.result_doLog env c.toKafkaClient _ _),
    bind_of_ok (KafkaClient.result_doLog env c'.toKafkaClient _ _)]
  simp only [logs_pure, List.append_nil]
  exact summary_eq hsame' _

/-- **Secrets**, exactly: constructed from properties that differ in secrets only, a producer logs
the same exactly when the properties that pass validation are discreet, and so does a consumer. -/
theorem logs_eq_iff (hkey : KeyOnly env) (hp : properties.WellTyped)
    (hp' : properties'.WellTyped) (h : SameButSecrets properties properties')
    (random : RandomIds) :
    ((KafkaProducer.construct env random.clientId properties).logs =
        (KafkaProducer.construct env random.clientId properties').logs ↔
      ∀ q q', KafkaProducer.validateAndReformProperties random.clientId properties = .ok q →
        KafkaProducer.validateAndReformProperties random.clientId properties' = .ok q' →
        Discreet env .KafkaProducer q q') ∧
    ((KafkaConsumer.construct env random properties).logs =
        (KafkaConsumer.construct env random properties').logs ↔
      ∀ q q', KafkaConsumer.validateAndReformProperties random properties = .ok q →
        KafkaConsumer.validateAndReformProperties random properties' = .ok q' →
        Discreet env .KafkaConsumer q q') :=
  ⟨producer_logs_eq_iff hkey hp hp' h random.clientId, consumer_logs_eq_iff hkey hp hp' h random⟩

end Constructors

/-- Another value under a sensitive key. -/
theorem sameButSecrets_withString (properties : Properties C) {key : String}
    (hkey : isSensitive key = true) (v v' : String) :
    SameButSecrets (properties.withString key v) (properties.withString key v') := by
  refine ⟨fun k => ?_, fun k hk => ?_⟩
  · rw [Properties.getElem?_withString, Properties.getElem?_withString]
    split <;> rfl
  · have hne : key ≠ k := by
      rintro rfl
      rw [hkey] at hk
      cases hk
    rw [Properties.getElem?_withString, Properties.getElem?_withString, if_neg hne, if_neg hne]

/-- Properties with a broker and a secret. -/
def withSecret (secret : String) : Properties plainTypes :=
  localhost.withString "sasl.secret" secret

theorem wellTyped_withSecret (secret : String) : (withSecret secret).WellTyped :=
  wellTyped_localhost.withString (by decide) secret

/-- A secret that is accepted is not seen in the log. -/
theorem logs_eq_iff_accepted :
    (KafkaProducer.construct agreeable "a" (withSecret "x")).logs =
        (KafkaProducer.construct agreeable "a" (withSecret "y")).logs ∧
      (KafkaConsumer.construct agreeable ⟨"a", "b"⟩ (withSecret "x")).logs =
        (KafkaConsumer.construct agreeable ⟨"a", "b"⟩ (withSecret "y")).logs := by
  obtain ⟨hproducer, hconsumer⟩ := logs_eq_iff (fun _ _ _ => rfl : KeyOnly agreeable)
    (wellTyped_withSecret "x") (wellTyped_withSecret "y")
    (sameButSecrets_withString localhost (by decide) "x" "y") ⟨"a", "b"⟩
  have hdiscreet : ∀ clientType q q', Discreet agreeable clientType q q' :=
    fun _ _ _ _ _ _ _ _ _ _ _ _ _ _ _ hne => absurd rfl hne
  exact ⟨hproducer.mpr fun q q' _ _ => hdiscreet _ q q',
    hconsumer.mpr fun q q' _ _ => hdiscreet _ q q'⟩

/-- librdkafka knows no property "sasl.secret". -/
def withoutSecret : Environment plainTypes :=
  { agreeable with
    rd_kafka_conf_set := fun k _ =>
      if k = c_str "sasl.secret" then
        (.RD_KAFKA_CONF_UNKNOWN, c_str "No such configuration property: \"sasl.secret\"")
      else (.RD_KAFKA_CONF_OK, c_str "") }

/-- A secret that is rejected is printed. -/
theorem rejected_secret_is_logged :
    KeyOnly withoutSecret ∧ SameButSecrets (withSecret "x") (withSecret "y") ∧
      (KafkaProducer.construct withoutSecret "a" (withSecret "x")).logs.head? = some ⟨3,
        "KafkaProducer[a] failed to be initialized with property[sasl.secret:x], result[-2]: " ++
          "No such configuration property: \"sasl.secret\""⟩ ∧
      (KafkaProducer.construct withoutSecret "a" (withSecret "x")).logs ≠
        (KafkaProducer.construct withoutSecret "a" (withSecret "y")).logs := by
  refine ⟨fun _ _ _ => rfl, sameButSecrets_withString localhost (by decide) "x" "y", ?_, ?_⟩
  · decide +kernel
  · decide +kernel

end ModernCppKafka.Clients
