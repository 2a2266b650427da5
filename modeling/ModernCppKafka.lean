import ModernCppKafka.Types
import ModernCppKafka.Lib.ImplicitHeap
import ModernCppKafka.Queue.Heap
import ModernCppKafka.Lib.Frontier
import ModernCppKafka.Lib.Run
import ModernCppKafka.Queue.CommitQueue
import ModernCppKafka.Queue.Refinement
import ModernCppKafka.Queue.Safety
import ModernCppKafka.Queue.History
import ModernCppKafka.Queue.AckOrder
import ModernCppKafka.Lib.LastWriter
import ModernCppKafka.RdKafkaHelper
import ModernCppKafka.Consumer.Commit
import ModernCppKafka.Consumer.AutoCommit
import ModernCppKafka.Consumer.Assignment
import ModernCppKafka.Consumer.Atomicity
import ModernCppKafka.Lib.Custody
import ModernCppKafka.Lib.Deadlock
import ModernCppKafka.Producer.Delivery
import ModernCppKafka.Producer.Recoverable
import ModernCppKafka.Producer.Deadlock
import ModernCppKafka.Lib.PriorityQueue
import ModernCppKafka.Queue.PriorityQueue
import ModernCppKafka.Queue.Reference
import ModernCppKafka.Queue.Monotone
import ModernCppKafka.Consumer.GroupProtocol
import ModernCppKafka.Consumer.CommitLog
import ModernCppKafka.Consumer.ManualAssignment
import ModernCppKafka.Consumer.TakesEffect
import ModernCppKafka.Consumer.Ownership
import ModernCppKafka.Lib.PatternPath
import ModernCppKafka.Metrics.KafkaMetrics
import ModernCppKafka.Metrics.Query
import ModernCppKafka.Metrics.IntRange
import ModernCppKafka.Consumer.OffsetsForTime
import ModernCppKafka.Log
import ModernCppKafka.RdKafkaHelper.RoundTrip
import ModernCppKafka.Metrics.Safety
import ModernCppKafka.Properties
import ModernCppKafka.Producer.RecordMetadata
import ModernCppKafka.Clients.KafkaClient
import ModernCppKafka.Clients.KafkaConsumer
import ModernCppKafka.Clients.KafkaProducer
import ModernCppKafka.Clients.KafkaRecoverableProducer
import ModernCppKafka.Lib.PairedMaps
import ModernCppKafka.Clients.Secrets
import ModernCppKafka.Lib.Progress
import ModernCppKafka.Clients.EventsPolling
import ModernCppKafka.Consumer.CommitCallbacks
import ModernCppKafka.Consumer.Closing
import ModernCppKafka.Lib.Coverage
import ModernCppKafka.Queue.AtLeastOnce
import ModernCppKafka.Consumer.AtLeastOnce
import ModernCppKafka.Lib.DoWhile
import ModernCppKafka.Lib.Joined
import ModernCppKafka.Clients.AdminClient
import ModernCppKafka.Clients.Records
import ModernCppKafka.Texts
import ModernCppKafka.Lib.ForEach
import ModernCppKafka.Consumer.Positions
import ModernCppKafka.Clients.EffectiveProperty
import ModernCppKafka.Clients.BrokerMetadata
import ModernCppKafka.Producer.SyncSend
import ModernCppKafka.Producer.QueueFull
