/-
  ModernCppKafka.Error — include/kafka/Error.h and include/kafka/KafkaException.h.

  An `Error` either holds an `rd_kafka_error_t` or caches what it knows in its own members, and
  each observer chooses between the two.  The assignment operator, which the copy constructor
  uses, always leaves the cached form.  `rd_kafka_err2str` is librdkafka's table of texts and
  stays a parameter.

  Main results:
    * `agrees_copies_iff`  — exactly which errors every chain of copies reports in full;
    * `abortable_is_lost`  — one that requires an abort is not among them.
-/
import Mathlib.Tactic

namespace ModernCppKafka

/-! ## §1. The class. -/

/-- `rd_kafka_resp_err_t`: negative codes are librdkafka's own, positive ones the broker's. -/
abbrev RespErr := Int

def RD_KAFKA_RESP_ERR_NO_ERROR : RespErr := 0
def RD_KAFKA_RESP_ERR__PARTITION_EOF : RespErr := -191
def RD_KAFKA_RESP_ERR__TIMED_OUT : RespErr := -185
def RD_KAFKA_RESP_ERR__FAIL : RespErr := -196
def RD_KAFKA_RESP_ERR__NO_OFFSET : RespErr := -168
def RD_KAFKA_RESP_ERR__INVALID_ARG : RespErr := -186

/-- `rd_kafka_error_t`, with what librdkafka's accessors return. -/
structure RdKafkaError where
  code : RespErr
  string : String
  isFatal : Bool
  isRetriable : Bool
  txnRequiresAbort : Bool
  deriving DecidableEq, Repr

/-- The members keep their underscores, as the observers have the plain names. -/
structure Error where
  _rkError : Option RdKafkaError := none
  _respErr : RespErr := RD_KAFKA_RESP_ERR_NO_ERROR
  _message : Option String := none
  _isFatal : Bool := false
  _txnRequiresAbort : Bool := false
  _isRetriable : Option Bool := none
  deriving DecidableEq, Repr

namespace Error

/-- `Error(rd_kafka_error_t*)`: the error with rich info (no error for a null pointer). -/
def ofRkError (error : Option RdKafkaError) : Error := { _rkError := error }

/-- `Error(rd_kafka_resp_err_t)`: the error with brief info. -/
def ofRespErr (respErr : RespErr) : Error := { _respErr := respErr }

/-- `Error(rd_kafka_resp_err_t, std::string, bool)`: the error with a detailed message. -/
def ofMessage (respErr : RespErr) (message : String) (fatal : Bool) : Error :=
  { _respErr := respErr, _message := some message, _isFatal := fatal }

/-! ## §2. The observers. -/

variable (rd_kafka_err2str : RespErr → String)

def value (e : Error) : Int :=
  match e._rkError with
  | some rk => rk.code
  | none => e._respErr

/-- `explicit operator bool`. -/
def toBool (e : Error) : Bool := e.value ≠ 0

def message (e : Error) : String :=
  match e._message, e._rkError with
  | some message, _ => message
  | none, some rk => rk.string
  | none, none => rd_kafka_err2str e._respErr

def isFatal (e : Error) : Bool :=
  match e._rkError with
  | some rk => rk.isFatal
  | none => e._isFatal

def isRetriable (e : Error) : Option Bool :=
  match e._rkError with
  | some rk => some rk.isRetriable
  | none => e._isRetriable

/-- The member `_txnRequiresAbort` is never read. -/
def transactionRequiresAbort (e : Error) : Bool :=
  match e._rkError with
  | some rk => rk.txnRequiresAbort
  | none => false

def toString (e : Error) : String :=
  rd_kafka_err2str e.value ++ " [" ++ ToString.toString e.value ++ "]"
    ++ (if e.isFatal then " fatal" else "")
    ++ (if e.transactionRequiresAbort then " | transaction-requires-abort" else "")
    ++ (match e.isRetriable with
        | some retriable => " | " ++ (if retriable then "retriable" else "non-retriable")
        | none => "")
    ++ (match e._message with
        | some message => " | " ++ message
        | none => "")

/-! ## §3. Copies. -/

/-- `operator=` from another object: every member of the target is overwritten. -/
def assign (_target : Error) (error : Error) : Error where
  _rkError := none
  _respErr := error.value
  _message := error._message
  _isFatal := error.isFatal
  _txnRequiresAbort := error.transactionRequiresAbort
  _isRetriable := error.isRetriable

/-- The copy constructor: `*this = error` on freshly initialised members. -/
def copy (error : Error) : Error := assign {} error

end Error

/-- `KafkaException`, as far as the error goes: it keeps a copy (`std::make_shared<Error>(error)`)
and `error()` returns it. -/
structure KafkaException where
  error : Error
  deriving DecidableEq, Repr

/-- `KAFKA_THROW_ERROR`. -/
def KafkaException.ofError (error : Error) : KafkaException := ⟨error.copy⟩

/-- `KAFKA_THROW_IF_WITH_ERROR`. -/
def throwIfWithError (error : Error) : Except KafkaException Unit :=
  if error.toBool then .error (.ofError error) else .ok ()

/-- `KafkaProducer::commitTransaction`, given what `rd_kafka_commit_transaction` returned. -/
def commitTransaction (result : Option RdKafkaError) : Except KafkaException Unit :=
  throwIfWithError (Error.ofRkError result)

/-- `KafkaProducer::abortTransaction`, given what `rd_kafka_abort_transaction` returned. -/
def abortTransaction (result : Option RdKafkaError) : Except KafkaException Unit :=
  throwIfWithError (Error.ofRkError result)

theorem throwIfWithError_of_true {e : Error} (h : e.toBool = true) :
    throwIfWithError e = .error (.ofError e) := if_pos h

theorem throwIfWithError_of_false {e : Error} (h : e.toBool = false) :
    throwIfWithError e = .ok () := if_neg (by simp [h])

/-- A code is thrown unless it is that of no error. -/
theorem throwIfWithError_ofRespErr (respErr : RespErr) :
    throwIfWithError (Error.ofRespErr respErr) =
      if respErr = RD_KAFKA_RESP_ERR_NO_ERROR then .ok ()
      else .error (.ofError (.ofRespErr respErr)) := by
  by_cases h : respErr = RD_KAFKA_RESP_ERR_NO_ERROR
  · rw [if_pos h, h]
    rfl
  · have htrue : (Error.ofRespErr respErr).toBool = true := by
      show decide (respErr ≠ 0) = true
      exact decide_eq_true h
    rw [if_neg h, throwIfWithError_of_true htrue]

theorem throwIfWithError_ok_iff {respErr : RespErr} :
    throwIfWithError (Error.ofRespErr respErr) = .ok () ↔
      respErr = RD_KAFKA_RESP_ERR_NO_ERROR := by
  rw [throwIfWithError_ofRespErr]
  split <;> simp [*]

theorem throwIfWithError_error_iff {respErr : RespErr} {e : KafkaException} :
    throwIfWithError (Error.ofRespErr respErr) = .error e ↔
      respErr ≠ RD_KAFKA_RESP_ERR_NO_ERROR ∧ e = .ofError (Error.ofRespErr respErr) := by
  rw [throwIfWithError_ofRespErr]
  split <;> simp [*, eq_comm]

namespace Error

/-! ## §4. What a copy should report. -/

/-- The three ways an error comes into being. -/
inductive Source where
  | rkError (error : Option RdKafkaError)
  | respErr (respErr : RespErr)
  | message (respErr : RespErr) (message : String) (fatal : Bool)
  deriving DecidableEq, Repr

def build : Source → Error
  | .rkError error => ofRkError error
  | .respErr respErr => ofRespErr respErr
  | .message respErr message fatal => ofMessage respErr message fatal

/-- One link of a chain of copies: from one object to the next that holds the error. -/
inductive Link where
  | construct
  /-- An assignment to another object, whatever that held. -/
  | assign (target : Error)
  /-- `e = e` returns at once. -/
  | selfAssign
  deriving DecidableEq, Repr

def follow (e : Error) : Link → Error
  | .construct => e.copy
  | .assign target => target.assign e
  | .selfAssign => e

/-- The error at the end of a chain of copies. -/
def copies (e : Error) (chain : List Link) : Error := chain.foldl follow e

variable (rd_kafka_err2str : RespErr → String)

/-- All six observers agree. -/
structure Agrees (e e' : Error) : Prop where
  value : e'.value = e.value
  message : e'.message rd_kafka_err2str = e.message rd_kafka_err2str
  isFatal : e'.isFatal = e.isFatal
  isRetriable : e'.isRetriable = e.isRetriable
  transactionRequiresAbort : e'.transactionRequiresAbort = e.transactionRequiresAbort
  toString : e'.toString rd_kafka_err2str = e.toString rd_kafka_err2str

/-- Nothing of the error lives in an `rd_kafka_error_t` only: it holds none, or one whose text
is the table's and which does not require an abort. -/
def Cacheable (e : Error) : Prop :=
  ∀ rk ∈ e._rkError, rk.string = rd_kafka_err2str rk.code ∧ rk.txnRequiresAbort = false

variable {rd_kafka_err2str}

theorem Agrees.refl (e : Error) : Agrees rd_kafka_err2str e e := ⟨rfl, rfl, rfl, rfl, rfl, rfl⟩

theorem Agrees.trans {e e' e'' : Error} (h : Agrees rd_kafka_err2str e e')
    (h' : Agrees rd_kafka_err2str e' e'') : Agrees rd_kafka_err2str e e'' where
  value := h'.value.trans h.value
  message := h'.message.trans h.message
  isFatal := h'.isFatal.trans h.isFatal
  isRetriable := h'.isRetriable.trans h.isRetriable
  transactionRequiresAbort := h'.transactionRequiresAbort.trans h.transactionRequiresAbort
  toString := h'.toString.trans h.toString

/-- A copy holds no `rd_kafka_error_t`, so it is cacheable. -/
theorem cacheable_copy (e : Error) : Cacheable rd_kafka_err2str e.copy := by
  simp [Cacheable, copy, assign]

/-- One copy. -/
theorem agrees_copy_iff (e : Error) (hm : e._rkError.isSome → e._message = none) :
    Agrees rd_kafka_err2str e e.copy ↔ Cacheable rd_kafka_err2str e := by
  cases hrk : e._rkError with
  | none =>
    have hc : Cacheable rd_kafka_err2str e := by simp [Cacheable, hrk]
    refine iff_of_true ⟨?_, ?_, ?_, ?_, ?_, ?_⟩ hc <;>
      simp [copy, assign, value, message, isFatal, isRetriable, transactionRequiresAbort,
        toString, hrk]
  | some rk =>
    have hmsg : e._message = none := hm (by simp [hrk])
    constructor
    · intro h
      have htext : rd_kafka_err2str rk.code = rk.string := by
        simpa [copy, assign, message, value, hrk, hmsg] using h.message
      have habort : rk.txnRequiresAbort = false := by
        simpa [copy, assign, transactionRequiresAbort, hrk] using
          h.transactionRequiresAbort.symm
      intro rk' hrk'
      obtain rfl : rk = rk' := by simpa [hrk] using hrk'
      exact ⟨htext.symm, habort⟩
    · intro hc
      obtain ⟨htext, habort⟩ := hc rk hrk
      refine ⟨?_, ?_, ?_, ?_, ?_, ?_⟩ <;>
        simp [copy, assign, value, message, isFatal, isRetriable, transactionRequiresAbort,
          toString, hrk, hmsg, htext, habort]

/-- An error built around an `rd_kafka_error_t` has no message of its own. -/
theorem message_build (src : Source) :
    (build src)._rkError.isSome → (build src)._message = none := by
  cases src <;> simp [build, ofRkError, ofRespErr, ofMessage]

/-- Copies of a cacheable error agree with it, however long the chain. -/
theorem agrees_copies {e : Error} (hm : e._rkError.isSome → e._message = none)
    (hc : Cacheable rd_kafka_err2str e) (chain : List Link) :
    Agrees rd_kafka_err2str e (e.copies chain) := by
  induction chain generalizing e with
  | nil => exact Agrees.refl e
  | cons link chain ih =>
    have hcopy : Agrees rd_kafka_err2str e (e.copy.copies chain) :=
      ((agrees_copy_iff e hm).mpr hc).trans
        (ih (by simp [copy, assign]) (cacheable_copy e))
    cases link with
    | construct => exact hcopy
    | assign target => exact hcopy
    | selfAssign => exact ih hm hc

/-- **Copies report what the original reports exactly when nothing of it lives in the
`rd_kafka_error_t` only**: this decides it for every chain of copies, and for the error an
exception carries. -/
theorem agrees_copies_iff (rd_kafka_err2str : RespErr → String) (src : Source) :
    ((∀ chain, Agrees rd_kafka_err2str (build src) ((build src).copies chain)) ∧
      Agrees rd_kafka_err2str (build src) (KafkaException.ofError (build src)).error) ↔
        Cacheable rd_kafka_err2str (build src) := by
  constructor
  · rintro ⟨-, hexc⟩
    exact (agrees_copy_iff _ (message_build src)).mp hexc
  · intro hc
    exact ⟨agrees_copies (message_build src) hc,
      (agrees_copy_iff _ (message_build src)).mpr hc⟩

/-- `commitTransaction` fails with an abortable error, and the exception denies it. -/
theorem abortable_is_lost :
    ¬ ∀ (rd_kafka_err2str : RespErr → String) (src : Source) (chain : List Link),
      Agrees rd_kafka_err2str (build src) ((build src).copies chain) := by
  intro h
  have := (h (fun _ => "") (.rkError (some ⟨47, "epoch", false, false, true⟩))
    [.construct]).transactionRequiresAbort
  revert this
  decide

/-- Whatever `commitTransaction` throws says that no abort is required. -/
theorem commitTransaction_error (result : Option RdKafkaError) (e : KafkaException)
    (h : commitTransaction result = .error e) : e.error.transactionRequiresAbort = false := by
  unfold commitTransaction throwIfWithError at h
  split at h
  · obtain rfl : KafkaException.ofError _ = e := by simpa using h
    rfl
  · simp at h

end Error

end ModernCppKafka
