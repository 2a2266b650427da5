/-
  ModernCppKafka.Consumer.State — the members of include/kafka/KafkaConsumer.h.

  One record holds what the operations on subscriptions, assignments and offsets read and
  write.  Every librdkafka call is an argument of the operation that makes it: its answer, and
  for the calls that run callbacks the events it serves meanwhile.
-/
import ModernCppKafka.Error
import ModernCppKafka.RdKafkaHelper

namespace ModernCppKafka.Consumer

/-- `enum class PendingEvent`. -/
inductive PendingEvent where
  | PartitionsAssignment
  | PartitionsRevocation
  deriving DecidableEq, Repr

/-- `Cb` is the type of the callables a `RebalanceCallback` can hold; an empty `std::function`
is `none`. -/
structure KafkaConsumer (Cb : Type) where
  /-- From the "enable.auto.commit" property. -/
  enableAutoCommit : Bool := true
  assignment : TopicPartitions := ∅
  userAssignment : TopicPartitions := ∅
  userSubscription : Topics := ∅
  pendingEvent : Option PendingEvent := none
  cooperativeEnabled : Option Bool := none
  /-- The offsets to store (and commit later). -/
  offsetsToStore : TopicPartitionOffsets := ∅
  rebalanceCb : Option Cb := none

/-- What the consumer reads of an `rd_kafka_message_t`.  The topic comes from librdkafka as a C
string. -/
structure ConsumerRecord where
  topic : CString
  partition : Partition
  offset : Offset
  err : RespErr := RD_KAFKA_RESP_ERR_NO_ERROR
  deriving DecidableEq

namespace ConsumerRecord

def error (record : ConsumerRecord) : Error := Error.ofRespErr record.err

/-- `TopicPartition(record.topic(), record.partition())`. -/
def topicPartition (record : ConsumerRecord) : TopicPartition :=
  ⟨record.topic.val, record.partition⟩

/-- An ordinary record, as opposed to an end-of-partition mark or a failure. -/
def Ok (record : ConsumerRecord) : Prop := record.error.toBool = false

instance (record : ConsumerRecord) : Decidable record.Ok := inferInstanceAs (Decidable (_ = _))

end ConsumerRecord

end ModernCppKafka.Consumer
