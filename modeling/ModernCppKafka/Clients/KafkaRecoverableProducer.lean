/-
  ModernCppKafka.Clients.KafkaRecoverableProducer — the log level of
  include/kafka/addons/KafkaRecoverableProducer.h, across recoveries.

  `setLogLevel` clamps the level of the producer there is, and stores the text of the level as it
  was given; a recovery builds a producer from what is stored.  Both are done under
  `_producerMutex`, so that a history is a sequence of such steps.

  Main results:
    * `Good.recovers_iff` — a recovery goes well exactly when the stored level is one;
    * `recoveries_iff`    — and so, whole histories.
-/
import ModernCppKafka.Clients.KafkaProducer
import ModernCppKafka.Lib.Run

namespace ModernCppKafka.Clients

open ModernCppKafka.Lib.Logged ModernCppKafka.Lib.Logged.WithLog ModernCppKafka.Lib.Run

/-! ## §1. The code. -/

/-- The class, as far as the producer is created again from it. -/
structure KafkaRecoverableProducer (C : ClientTypes) where
  _properties : Properties C
  _producer : KafkaProducer C

variable {C : ClientTypes} (env : Environment C) (onError : C.ErrorCallback) (random : String)

namespace KafkaRecoverableProducer

def createProducer (_properties : Properties C) : Construct (KafkaProducer C) :=
  KafkaProducer.construct env random _properties

/-- `KafkaRecoverableProducer(properties)`; `onError` notes a fatal error for the poll thread. -/
def construct (properties : Properties C) : Construct (KafkaRecoverableProducer C) := do
  let _properties ← putString properties Config.ENABLE_MANUAL_EVENTS_POLL "true"
  let _properties ← putOrThrow _properties Config.ERROR_CB (.of .error onError)
  let _producer ← createProducer env random _properties
  return { _properties, _producer }

def setLogLevel (r : KafkaRecoverableProducer C) (level : Int32) :
    Except CppException (KafkaRecoverableProducer C) := do
  let _properties ← putString r._properties Config.LOG_LEVEL (to_string level.toInt)
  return { _properties, _producer := r._producer.setLogLevel level }

/-- What the poll thread does about a fatal error, once the old producer is purged and closed. -/
def recover (r : KafkaRecoverableProducer C) : Construct (KafkaRecoverableProducer C) := do
  let _producer ← createProducer env random r._properties
  return { r with _producer }

/-- A call by the application, or a recovery, with the id made for the new producer. -/
inductive Action where
  | setLogLevel (level : Int32)
  | recover (random : String)

/-- An exception leaves the poll thread, and ends the program. -/
def step (r : KafkaRecoverableProducer C) : Action → Option (KafkaRecoverableProducer C)
  | .setLogLevel level => (r.setLogLevel level).toOption
  | .recover random => (r.recover env random).result.toOption

/-! ## §2. What a recovery is to do. -/

/-- A recovery returns, with the level that was in force before. -/
def Recovers (r : KafkaRecoverableProducer C) : Action → Prop
  | .setLogLevel _ => True
  | .recover random => ∃ r', (r.recover env random).result = .ok r' ∧
      r'._producer._logLevel = r._producer._logLevel

/-- The level set last, if any, is one. -/
def InRange (last : Option Int32) : Prop := ∀ level ∈ last, Emerg ≤ level ∧ level ≤ Debug

/-- It is at each recovery; `last` is the level set last before. -/
def InRangeAtRecoveries : Option Int32 → List Action → Prop
  | _, [] => True
  | _, .setLogLevel level :: as => InRangeAtRecoveries (some level) as
  | last, .recover _ :: as => InRange last ∧ InRangeAtRecoveries last as

/-! ## §3. The level stored. -/

/-- The level that a producer created from the properties logs at. -/
def storedLevel (properties : Properties C) : Except CppException Int32 :=
  KafkaClient.parseLogLevel
    ((properties.getProperty Config.LOG_LEVEL).getD (to_string Notice.toInt))

theorem logLevelOf_reformed (properties : Properties C) :
    KafkaClient.logLevelOf (KafkaClient.reformed random properties) = storedLevel properties := by
  rw [KafkaClient.logLevelOf, KafkaClient.reformed, Properties.getProperty_withDefault_self,
    Properties.getProperty_withDefault_of_ne _ _ (by decide)]
  rfl

/-- A number is a level when it is in range. -/
theorem parseLogLevel_to_string (level : Int32) :
    (InRange (some level) ∧ KafkaClient.parseLogLevel (to_string level.toInt) = .ok level) ∨
      (¬ InRange (some level) ∧
        ∃ e, KafkaClient.parseLogLevel (to_string level.toInt) = .error e) := by
  have hstoi : stoi (to_string level.toInt) = .ok level := by
    rw [stoi_to_string, if_pos ⟨level.minValue_le_toInt, level.toInt_le⟩, Int32.ofInt_toInt]
  rw [KafkaClient.parseLogLevel, hstoi]
  dsimp only
  by_cases h : level < Emerg ∨ level > Debug
  · refine Or.inr ⟨fun hin => ?_, _, if_pos h⟩
    obtain ⟨hlower, hupper⟩ := hin level rfl
    rcases h with hlt | hgt
    · exact absurd hlower (Int32.not_le.mpr hlt)
    · exact absurd hupper (Int32.not_le.mpr hgt)
  · refine Or.inl ⟨?_, if_neg h⟩
    rintro _ ⟨⟩
    rw [not_or] at h
    exact ⟨Int32.not_lt.mp h.1, Int32.not_lt.mp h.2⟩

theorem setLogLevel_of_inRange (c : KafkaProducer C) {level : Int32}
    (h : InRange (some level)) : (c.setLogLevel level)._logLevel = level := by
  obtain ⟨hlower, hupper⟩ := h level rfl
  show (if level < Emerg then Emerg else if level > Debug then Debug else level) = level
  rw [if_neg (Int32.not_lt.mpr hlower), if_neg (Int32.not_lt.mpr hupper)]

/-! ## §4. A recovery. -/

/-- Only the level has changed since the properties `initial`, and the one stored is in force;
`last` is the level set last. -/
structure Good (initial : Properties C) (last : Option Int32) (r : KafkaRecoverableProducer C) :
    Prop where
  wellTyped : r._properties.WellTyped
  elsewhere : ∀ k, Config.LOG_LEVEL ≠ k → r._properties._kvMap[k]? = initial._kvMap[k]?
  level : (InRange last ∧ storedLevel r._properties = .ok r._producer._logLevel) ∨
    (¬ InRange last ∧ ∃ e, storedLevel r._properties = .error e)

/-- Setting the level stores its text. -/
theorem Good.setLogLevel {initial : Properties C} {last : Option Int32}
    {r : KafkaRecoverableProducer C} (h : r.Good initial last) (level : Int32) :
    ∃ r', r.setLogLevel level = .ok r' ∧ r'.Good initial (some level) := by
  rw [KafkaRecoverableProducer.setLogLevel, KafkaClient.putString_eq (by decide)]
  refine ⟨_, rfl, h.wellTyped.withString (by decide) _, fun k hk => ?_, ?_⟩
  · rw [Properties.getElem?_withString, if_neg hk]
    exact h.elsewhere k hk
  · rw [storedLevel, Properties.getProperty_withString_self, Option.getD_some]
    rcases parseLogLevel_to_string level with ⟨hin, hparse⟩ | ⟨hout, hparse⟩
    · exact Or.inl ⟨hin, hparse.trans (congrArg Except.ok (setLogLevel_of_inRange _ hin).symm)⟩
    · exact Or.inr ⟨hout, hparse⟩

/-- What could be constructed once can be again, while the level is one. -/
theorem constructible_again {initial properties : Properties C} {random₀ : String}
    (h₀ : KafkaProducer.Constructible env random₀ initial)
    (helse : ∀ k, Config.LOG_LEVEL ≠ k → properties._kvMap[k]? = initial._kvMap[k]?)
    (hlevel : ∃ level, storedLevel properties = .ok level) :
    KafkaProducer.Constructible env random properties := by
  have hread : ∀ k, Config.LOG_LEVEL ≠ k → properties.getProperty k = initial.getProperty k := by
    intro k hk
    rw [Properties.getProperty_eq, helse k hk, Properties.getProperty_eq]
  have hreformed : ∀ k, Config.CLIENT_ID ≠ k → Config.LOG_LEVEL ≠ k →
      (KafkaClient.reformed random properties).getProperty k =
        (KafkaClient.reformed random₀ initial).getProperty k := by
    intro k hclient hk
    rw [KafkaProducer.getProperty_reformed random properties hclient hk,
      KafkaProducer.getProperty_reformed random₀ initial hclient hk, hread k hk]
  obtain ⟨hpartitioner, hidempotence⟩ :
      KafkaProducer.checkPartitioner properties = KafkaProducer.checkPartitioner initial ∧
        KafkaProducer.checkIdempotence properties = KafkaProducer.checkIdempotence initial := by
    refine KafkaProducer.checks_congr fun key hkey => hread key ?_
    rintro rfl
    revert hkey
    decide
  refine ⟨?_, hpartitioner.trans h₀.partitioner, hidempotence.trans h₀.idempotence, ?_⟩
  · rw [hread _ (by decide)]
    exact h₀.servers
  · refine h₀.client.congr env ?_ (hreformed _ (by decide) (by decide))
      (hreformed _ (by decide) (by decide)) fun hc => ?_
    · rw [logLevelOf_reformed]
      exact hlevel
    · rw [← hc]
      refine KafkaClient.contains_congr ?_
      simp (disch := decide) only [KafkaClient.reformed, Properties.getElem?_withDefault_of_ne]
      exact (helse _ (by decide)).symm

/-- A recovery that returns has put the stored level in force. -/
theorem storedLevel_of_recover {r r' : KafkaRecoverableProducer C}
    (hp : r._properties.WellTyped) (h : (r.recover env random).result = .ok r') :
    r'._properties = r._properties ∧
      storedLevel r._properties = .ok r'._producer._logLevel := by
  obtain ⟨c, hc, hr'⟩ := bind_eq_ok.mp h
  obtain rfl : { r with _producer := c } = r' := Except.ok.inj hr'
  rcases KafkaProducer.construct_cases env random hp with ⟨-, c', hc', hfields⟩ | ⟨-, e, he⟩
  · obtain rfl := Except.ok.inj (hc'.symm.trans hc)
    exact ⟨rfl, (logLevelOf_reformed random r._properties).symm.trans hfields.level_eq⟩
  · cases he.symm.trans hc

/-- **A recovery** goes well exactly when the level set last is one. -/
theorem Good.recovers_iff {initial : Properties C} {last : Option Int32}
    {r : KafkaRecoverableProducer C} {random₀ : String}
    (h₀ : KafkaProducer.Constructible env random₀ initial) (h : r.Good initial last) :
    Recovers env r (.recover random) ↔ InRange last := by
  rcases h.level with ⟨hin, hstored⟩ | ⟨hout, e, hstored⟩
  · -- nothing but the level has changed, and the level can be read
    refine iff_of_true ?_ hin
    have hagain := constructible_again env random h₀ h.elsewhere ⟨_, hstored⟩
    rcases KafkaProducer.construct_cases env random h.wellTyped with
      ⟨-, c, hc, -⟩ | ⟨hnot, -⟩
    · have hr : (r.recover env random).result = .ok { r with _producer := c } :=
        bind_eq_ok.mpr ⟨c, hc, rfl⟩
      obtain ⟨-, hlevel⟩ := storedLevel_of_recover env random h.wellTyped hr
      exact ⟨_, hr, Except.ok.inj (hlevel.symm.trans hstored)⟩
    · exact absurd hagain hnot
  · -- the stored text is refused by the constructor
    refine iff_of_false ?_ hout
    rintro ⟨r', hr', -⟩
    obtain ⟨-, hlevel⟩ := storedLevel_of_recover env random h.wellTyped hr'
    cases hstored.symm.trans hlevel

theorem Good.recover {initial : Properties C} {last : Option Int32}
    {r r' : KafkaRecoverableProducer C} (h : r.Good initial last)
    (hr : (r.recover env random).result = .ok r') : r'.Good initial last := by
  obtain ⟨hprops, hlevel⟩ := storedLevel_of_recover env random h.wellTyped hr
  refine ⟨hprops ▸ h.wellTyped, hprops ▸ h.elsewhere, ?_⟩
  rw [hprops, hlevel]
  rcases h.level with ⟨hin, -⟩ | ⟨-, e, hstored⟩
  · exact Or.inl ⟨hin, rfl⟩
  · cases hstored.symm.trans hlevel

/-! ## §5. Histories. -/

/-- A new object is good, and what it stores has just been used. -/
theorem good_construct {properties : Properties C} (hp : properties.WellTyped)
    {r : KafkaRecoverableProducer C}
    (hr : (construct env onError random properties).result = .ok r) :
    KafkaProducer.Constructible env random r._properties ∧ r.Good r._properties none := by
  have herror : Properties.Belongs Kind.error Config.ERROR_CB := rfl
  rw [construct, KafkaClient.putString_eq (by decide), bind_of_ok (result_liftM _),
    KafkaClient.putOrThrow_of_belongs herror, bind_of_ok (result_liftM _)] at hr
  have hstored : Properties.WellTyped
      (⟨(properties.withString Config.ENABLE_MANUAL_EVENTS_POLL "true")._kvMap.insert
        Config.ERROR_CB (.of .error onError)⟩ : Properties C) :=
    (hp.withString (by decide) _).insert herror
  obtain ⟨c, hc, hr⟩ := bind_eq_ok.mp hr
  obtain rfl := Except.ok.inj hr
  rcases KafkaProducer.construct_cases env random hstored with
    ⟨hcons, c', hc', hfields⟩ | ⟨-, e, he⟩
  · obtain rfl := Except.ok.inj (hc'.symm.trans hc)
    refine ⟨hcons, hstored, fun _ _ => rfl, Or.inl ⟨?_, ?_⟩⟩
    · rintro _ ⟨⟩
    · exact (logLevelOf_reformed random _).symm.trans hfields.level_eq
  · cases he.symm.trans hc

theorem recoveries_iff_of_good {initial : Properties C} {random₀ : String}
    (h₀ : KafkaProducer.Constructible env random₀ initial) {last : Option Int32}
    {r : KafkaRecoverableProducer C} (h : r.Good initial last) (as : List Action) :
    Along (step env) (Recovers env) r as ↔ InRangeAtRecoveries last as := by
  -- over the history, with what was set last; `Good` says what a recovery needs of it
  induction as generalizing last r with
  | nil => exact Iff.rfl
  | cons a as ih =>
    cases a with
    | setLogLevel level =>
      obtain ⟨r', hr', hgood⟩ := h.setLogLevel level
      rw [InRangeAtRecoveries, ← ih hgood, Along]
      have hstep : step env r (.setLogLevel level) = some r' := by
        rw [step, hr']
        rfl
      rw [hstep]
      constructor
      · rintro ⟨-, hrest⟩
        exact hrest r' rfl
      · intro hrest
        refine ⟨trivial, ?_⟩
        rintro _ ⟨⟩
        exact hrest
    | recover random =>
      rw [InRangeAtRecoveries, Along, h.recovers_iff env random h₀]
      refine and_congr_right fun hin => ?_
      obtain ⟨r', hr', -⟩ := (h.recovers_iff env random h₀).mpr hin
      have hstep : step env r (.recover random) = some r' := by
        rw [step, hr']
        rfl
      rw [hstep, ← ih (h.recover env random hr')]
      constructor
      · intro hrest
        exact hrest r' rfl
      · rintro hrest _ ⟨⟩
        exact hrest

/-- **Recoveries**, exactly: along a history of levels set and producers created again, no
recovery throws and each keeps the level in force, exactly when at each of them the level set
last, if any, is between `Emerg` and `Debug`. -/
theorem recoveries_iff {properties : Properties C} (hp : properties.WellTyped)
    {r : KafkaRecoverableProducer C}
    (hr : (construct env onError random properties).result = .ok r) (as : List Action) :
    Along (step env) (Recovers env) r as ↔ InRangeAtRecoveries none as := by
  obtain ⟨h₀, hgood⟩ := good_construct env onError random hp hr
  exact recoveries_iff_of_good env h₀ hgood as

/-- A producer that names a broker can be made. -/
theorem exists_construct_localhost :
    ∃ r, (construct agreeable () "a" localhost).result = .ok r := by
  have hok : (construct agreeable () "a" localhost).result.map (fun _ => ()) = .ok () := by
    decide +kernel
  obtain ⟨r, hr, -⟩ := map_eq_ok.mp hok
  exact ⟨r, hr⟩

/-- `Debug` is in force after a recovery as before, and a recovery before that does no harm. -/
theorem recoveries_iff_debug :
    ∃ r, (construct agreeable () "a" localhost).result = .ok r ∧
      Along (step agreeable) (Recovers agreeable) r
        [.recover "b", .setLogLevel 9, .setLogLevel 7, .recover "c"] := by
  obtain ⟨r, hr⟩ := exists_construct_localhost
  refine ⟨r, hr, (recoveries_iff agreeable () "a" wellTyped_localhost hr _).mpr ⟨?_, ?_, trivial⟩⟩
  · rintro _ ⟨⟩
  · rintro _ ⟨⟩
    decide

/-- `8` is clamped to `7` for the producer there is, but stored: after a fatal error the exception
ends the poll thread. -/
theorem level_above_debug_ends_recovery :
    ∃ r r', (construct agreeable () "a" localhost).result = .ok r ∧
      r.setLogLevel 8 = .ok r' ∧ r'._producer._logLevel = 7 ∧
      (∃ e, (r'.recover agreeable "b").result = .error e) ∧
      ¬ Recovers agreeable r' (.recover "b") := by
  obtain ⟨r, hr⟩ := exists_construct_localhost
  obtain ⟨h₀, hgood⟩ := good_construct agreeable () "a" wellTyped_localhost hr
  obtain ⟨r', hr', hgood'⟩ := hgood.setLogLevel 8
  have hout : ¬ InRange (some (8 : Int32)) := fun hin => absurd (hin 8 rfl).2 (by decide)
  refine ⟨r, r', hr, hr', ?_, ?_, fun h => hout ((hgood'.recovers_iff agreeable "b" h₀).mp h)⟩
  · rw [KafkaRecoverableProducer.setLogLevel, KafkaClient.putString_eq (by decide)] at hr'
    obtain rfl := Except.ok.inj hr'
    rfl
  · cases hres : (r'.recover agreeable "b").result with
    | error e => exact ⟨e, rfl⟩
    | ok r'' =>
      obtain ⟨-, hlevel⟩ := storedLevel_of_recover agreeable "b" hgood'.wellTyped hres
      rcases hgood'.level with ⟨hin, -⟩ | ⟨-, e, hstored⟩
      · exact absurd hin hout
      · cases hstored.symm.trans hlevel

end KafkaRecoverableProducer

end ModernCppKafka.Clients
