/-
  ModernCppKafka.Timeout — how a timeout in milliseconds becomes the `int` librdkafka takes.

  The calls take a `std::chrono::milliseconds`, whose count is a 64-bit integer, and `-1` is
  infinite to librdkafka.  Some narrow the count with `convertMsDurationToInt`, which turns what
  does not fit into infinite; the others cast it, which keeps the low 32 bits.

  Main results:
    * `toInt_convertMsDurationToInt` — the conversion keeps the meaning of every timeout;
    * `cast_keepsMeaning_iff`        — the cast does for those that fit, and by luck for those
      whose low 32 bits are all set, as in `InfiniteTimeout`;
    * `keepsMeaning_iff`             — both, for every call.
-/
import ModernCppKafka.Types

namespace ModernCppKafka

/-! ## §1. The conversions. -/

/-- `std::chrono::milliseconds`: its `count()`. -/
abbrev Milliseconds := Int64

/-- `InfiniteTimeout`, that is `std::chrono::milliseconds::max()`. -/
def InfiniteTimeout : Milliseconds := Int64.maxValue

def INT_MAX : Milliseconds := 2147483647

namespace KafkaClient

def TIMEOUT_INFINITE : Int32 := -1

def convertMsDurationToInt (ms : Milliseconds) : Int32 :=
  if ms > INT_MAX then TIMEOUT_INFINITE else ms.toInt32

end KafkaClient

open KafkaClient

/-- `static_cast<int>(timeout.count())`. -/
def castMsDurationToInt (timeout : Milliseconds) : Int32 := timeout.toInt32

/-! ## §2. What the calls hand over. -/

namespace KafkaClient

/-- To the callback that passes it to `rd_kafka_poll`. -/
def pollEvents (timeout : Milliseconds) : Int32 := convertMsDurationToInt timeout

/-- To `rd_kafka_metadata`. -/
def fetchBrokerMetadata (timeout : Milliseconds) : Int32 := convertMsDurationToInt timeout

end KafkaClient

namespace AdminClient

/-- To `rd_kafka_metadata`. -/
def listTopics (timeout : Milliseconds) : Int32 := convertMsDurationToInt timeout

end AdminClient

namespace KafkaConsumer

/-- To `rd_kafka_consume_batch_queue`. -/
def poll (timeout : Milliseconds) : Int32 := convertMsDurationToInt timeout

/-- To `rd_kafka_offsets_for_times`. -/
def offsetsForTime (timeout : Milliseconds) : Int32 := castMsDurationToInt timeout

/-- To `rd_kafka_query_watermark_offsets`, for each partition. -/
def getOffsets (timeout : Milliseconds) : Int32 := castMsDurationToInt timeout

def beginningOffsets (timeout : Milliseconds) : Int32 := getOffsets timeout

def endOffsets (timeout : Milliseconds) : Int32 := getOffsets timeout

end KafkaConsumer

namespace KafkaProducer

/-- To `rd_kafka_flush`. -/
def flush (timeout : Milliseconds) : Int32 := convertMsDurationToInt timeout

/-- Flushes first. -/
def close (timeout : Milliseconds) : Int32 := flush timeout

/-- To `rd_kafka_init_transactions`. -/
def initTransactions (timeout : Milliseconds) : Int32 := castMsDurationToInt timeout

/-- To `rd_kafka_commit_transaction`. -/
def commitTransaction (timeout : Milliseconds) : Int32 := castMsDurationToInt timeout

/-- To `rd_kafka_abort_transaction`. -/
def abortTransaction (timeout : Milliseconds) : Int32 := castMsDurationToInt timeout

/-- To `rd_kafka_send_offsets_to_transaction`. -/
def sendOffsetsToTransaction (timeout : Milliseconds) : Int32 := castMsDurationToInt timeout

end KafkaProducer

/-- The calls with a timeout. -/
inductive TimedCall where
  | poll | pollEvents | flush | close | fetchBrokerMetadata | listTopics
  | initTransactions | commitTransaction | abortTransaction | sendOffsetsToTransaction
  | offsetsForTime | beginningOffsets | endOffsets
  deriving DecidableEq

namespace TimedCall

/-- The `int` that librdkafka gets. -/
def handed : TimedCall → Milliseconds → Int32
  | poll => KafkaConsumer.poll
  | pollEvents => KafkaClient.pollEvents
  | flush => KafkaProducer.flush
  | close => KafkaProducer.close
  | fetchBrokerMetadata => KafkaClient.fetchBrokerMetadata
  | listTopics => AdminClient.listTopics
  | initTransactions => KafkaProducer.initTransactions
  | commitTransaction => KafkaProducer.commitTransaction
  | abortTransaction => KafkaProducer.abortTransaction
  | sendOffsetsToTransaction => KafkaProducer.sendOffsetsToTransaction
  | offsetsForTime => KafkaConsumer.offsetsForTime
  | beginningOffsets => KafkaConsumer.beginningOffsets
  | endOffsets => KafkaConsumer.endOffsets

/-- The calls that use `convertMsDurationToInt`. -/
def Converts : TimedCall → Prop
  | poll | pollEvents | flush | close | fetchBrokerMetadata | listTopics => True
  | initTransactions | commitTransaction | abortTransaction | sendOffsetsToTransaction
  | offsetsForTime | beginningOffsets | endOffsets => False

end TimedCall

/-! ## §3. What is kept. -/

/-- What a timeout means to librdkafka: its count where an `int` holds it, else infinite. -/
def meaning (timeout : Milliseconds) : Int :=
  if timeout.toInt ≤ Int32.maxValue.toInt then timeout.toInt else -1

/-- A timeout that fits an `int`, or one whose low 32 bits are all set. -/
def FitsOrAllOnes (timeout : Milliseconds) : Prop :=
  timeout.toInt ≤ Int32.maxValue.toInt ∨ timeout.toInt % 2 ^ 32 = 2 ^ 32 - 1

instance (timeout : Milliseconds) : Decidable (FitsOrAllOnes timeout) :=
  inferInstanceAs (Decidable (_ ∨ _))

/-- The cast wraps around. -/
theorem toInt_castMsDurationToInt (timeout : Milliseconds) :
    (castMsDurationToInt timeout).toInt = timeout.toInt.bmod (2 ^ 32) :=
  Int64.toInt_toInt32 timeout

/-- A count that fits is cast to itself. -/
theorem toInt_cast_of_le {timeout : Milliseconds} (h0 : 0 ≤ timeout.toInt)
    (h : timeout.toInt ≤ Int32.maxValue.toInt) :
    (castMsDurationToInt timeout).toInt = timeout.toInt := by
  have hmax : Int32.maxValue.toInt = 2147483647 := rfl
  rw [toInt_castMsDurationToInt]
  exact Int.bmod_eq_of_le (by norm_num; omega) (by norm_num; omega)

/-- **The conversion keeps the meaning** of every timeout that is not negative. -/
theorem toInt_convertMsDurationToInt {timeout : Milliseconds} (h0 : 0 ≤ timeout.toInt) :
    (convertMsDurationToInt timeout).toInt = meaning timeout := by
  have hcmp : timeout > INT_MAX ↔ ¬ timeout.toInt ≤ Int32.maxValue.toInt := by
    rw [gt_iff_lt, Int64.lt_iff_toInt_lt, not_le]
    rfl
  rw [convertMsDurationToInt, meaning]
  by_cases h : timeout.toInt ≤ Int32.maxValue.toInt
  · rw [if_neg (by simpa [hcmp] using h), if_pos h]
    exact toInt_cast_of_le h0 h
  · rw [if_pos (hcmp.mpr h), if_neg h]
    rfl

/-- **The cast keeps it by luck only**: a count that does not fit must end in 32 ones. -/
theorem cast_keepsMeaning_iff {timeout : Milliseconds} (h0 : 0 ≤ timeout.toInt) :
    (castMsDurationToInt timeout).toInt = meaning timeout ↔ FitsOrAllOnes timeout := by
  rw [FitsOrAllOnes, meaning]
  by_cases h : timeout.toInt ≤ Int32.maxValue.toInt
  · rw [if_pos h]
    exact iff_of_true (toInt_cast_of_le h0 h) (Or.inl h)
  · rw [if_neg h, toInt_castMsDurationToInt, or_iff_right h, Int.bmod_def]
    split <;> norm_num at * <;> omega

namespace TimedCall

/-- A call hands over either the conversion or the cast. -/
theorem handed_eq (call : TimedCall) (timeout : Milliseconds) :
    (call.Converts ∧ call.handed timeout = convertMsDurationToInt timeout) ∨
      (¬ call.Converts ∧ call.handed timeout = castMsDurationToInt timeout) := by
  cases call <;> first | exact Or.inl ⟨trivial, rfl⟩ | exact Or.inr ⟨id, rfl⟩

/-- **When timeouts keep their meaning**: in the calls that convert always, in the others when
the count fits or ends in 32 ones; the two conversions agree in the same cases. -/
theorem keepsMeaning_iff (timeout : Milliseconds) (h0 : 0 ≤ timeout.toInt) :
    (∀ call : TimedCall, (call.handed timeout).toInt = meaning timeout ↔
      call.Converts ∨ FitsOrAllOnes timeout) ∧
    (convertMsDurationToInt timeout = castMsDurationToInt timeout ↔ FitsOrAllOnes timeout) := by
  constructor
  · intro call
    rcases call.handed_eq timeout with ⟨hconv, heq⟩ | ⟨hcast, heq⟩
    · rw [heq]
      exact iff_of_true (toInt_convertMsDurationToInt h0) (Or.inl hconv)
    · rw [heq, cast_keepsMeaning_iff h0, or_iff_right hcast]
  · rw [← Int32.toInt_inj, toInt_convertMsDurationToInt h0, eq_comm, cast_keepsMeaning_iff h0]

/-- Both sides at the default timeout, which only looks converted in the calls that cast. -/
theorem keepsMeaning_iff_infinite :
    (∀ call : TimedCall, (call.handed InfiniteTimeout).toInt = -1 ↔
      call.Converts ∨ FitsOrAllOnes InfiniteTimeout) ∧
    (convertMsDurationToInt InfiniteTimeout = castMsDurationToInt InfiniteTimeout ↔
      FitsOrAllOnes InfiniteTimeout) :=
  keepsMeaning_iff InfiniteTimeout (by decide)

/-- A wait of 2^32 ms, some fifty days, is no wait at all where it is cast, and infinite where it
is converted. -/
theorem long_timeout_is_zero :
    ¬ (∀ (call : TimedCall) (timeout : Milliseconds), 0 ≤ timeout.toInt →
        (call.handed timeout).toInt = meaning timeout) ∧
      commitTransaction.handed 4294967296 = 0 ∧ flush.handed 4294967296 = -1 := by
  refine ⟨fun h => ?_, by decide, by decide⟩
  exact absurd (h commitTransaction 4294967296 (by decide)) (by decide)

end TimedCall

end ModernCppKafka
