/-
  ModernCppKafka.Clients.BrokerMetadata — include/kafka/BrokerMetadata.h, and
  `KafkaClient::fetchBrokerMetadata` that fills it.

  librdkafka answers with the brokers and all topics; the answer is searched for the topic asked
  for, and what it says of the partitions that are in order is copied.

  Main results:
    * `fetchBrokerMetadata_spec` — when there is metadata, and what it says of every broker and
      partition;
    * `toString_eq`              — its text.
-/
import ModernCppKafka.Error
import ModernCppKafka.Lib.Joined
import ModernCppKafka.Lib.LastWriter
import ModernCppKafka.RdKafkaHelper

namespace ModernCppKafka.Clients

open ModernCppKafka.Lib.Joined
open ModernCppKafka.Lib.LastWriter

/-! ## §1. The class. -/

structure BrokerMetadata.Node where
  id : Int32
  host : String
  port : Int32
  deriving DecidableEq, Repr

structure BrokerMetadata.PartitionInfo where
  leader : Int32
  replicas : List Int32 := []
  inSyncReplicas : List Int32 := []
  deriving DecidableEq, Repr

@[ext] structure BrokerMetadata where
  _topic : Topic
  _origNodeName : String := ""
  _nodes : Std.ExtTreeMap Int32 BrokerMetadata.Node compare := ∅
  _partitions : Std.ExtTreeMap Partition BrokerMetadata.PartitionInfo compare := ∅

namespace BrokerMetadata

def Node.toString (node : Node) : String :=
  node.host ++ ":" ++ ToString.toString node.port.toInt ++ "/" ++ ToString.toString node.id.toInt

def PartitionInfo.addReplica (partitionInfo : PartitionInfo) (id : Int32) : PartitionInfo :=
  { partitionInfo with replicas := partitionInfo.replicas ++ [id] }

def PartitionInfo.addInSyncReplica (partitionInfo : PartitionInfo) (id : Int32) : PartitionInfo :=
  { partitionInfo with inSyncReplicas := partitionInfo.inSyncReplicas ++ [id] }

variable (metadata : BrokerMetadata)

def setOrigNodeName (origNodeName : String) : BrokerMetadata :=
  { metadata with _origNodeName := origNodeName }

def addNode (nodeId : Int32) (host : String) (port : Int32) : BrokerMetadata :=
  { metadata with _nodes := metadata._nodes.insert nodeId ⟨nodeId, host, port⟩ }

/-- `emplace` keeps what is there. -/
def addPartitionInfo (partition : Partition) (partitionInfo : PartitionInfo) : BrokerMetadata :=
  { metadata with _partitions := metadata._partitions.insertIfNew partition partitionInfo }

def nodes : List Node := metadata._nodes.toList.map Prod.snd

def getNodeDescription (id : Int32) : String :=
  match metadata._nodes[id]? with
  | none => "-:-/" ++ ToString.toString id.toInt
  | some node =>
    node.host ++ ":" ++ ToString.toString node.port.toInt ++ "/" ++ ToString.toString id.toInt

/-- `streamNodes`. -/
def streamNodes (nodeIds : List Int32) : String :=
  ((nodeIds.map metadata.getNodeDescription).foldl (appendUnlessFirst ", ") (true, "")).2

def toStringPartitionInfo (partitionInfo : PartitionInfo) : String :=
  "leader[" ++ metadata.getNodeDescription partitionInfo.leader ++ "], replicas["
    ++ metadata.streamNodes partitionInfo.replicas ++ "], inSyncReplicas["
    ++ metadata.streamNodes partitionInfo.inSyncReplicas ++ "]"

def toString : String :=
  "originatingNode[" ++ metadata._origNodeName ++ "], topic[" ++ metadata._topic
    ++ "], partitions\x7b"
    ++ ((metadata._partitions.toList.map fun partitionInfoPair =>
        ToString.toString partitionInfoPair.1.toInt ++ ": "
          ++ metadata.toStringPartitionInfo partitionInfoPair.2).foldl
        (appendUnlessFirst "; ") (true, "")).2
    ++ "\x7d"

end BrokerMetadata

/-! ## §2. librdkafka's answer. -/

/-- `rd_kafka_metadata_broker`. -/
structure MetadataBroker where
  id : Int32
  host : CString
  port : Int32

/-- `rd_kafka_metadata_partition`. -/
structure MetadataPartition where
  id : Partition
  err : RespErr := RD_KAFKA_RESP_ERR_NO_ERROR
  leader : Int32
  replicas : List Int32
  isrs : List Int32

/-- `rd_kafka_metadata_topic`. -/
structure MetadataTopic where
  topic : CString
  err : RespErr := RD_KAFKA_RESP_ERR_NO_ERROR
  partitions : List MetadataPartition

/-- What `rd_kafka_metadata` returns; the name of the broker asked may be a null pointer. -/
structure RkMetadata where
  err : RespErr := RD_KAFKA_RESP_ERR_NO_ERROR
  brokers : List MetadataBroker
  topics : List MetadataTopic
  orig_broker_name : Option CString := none

/-! ## §3. Fetching. -/

/-- The `PartitionInfo` filled in the two loops. -/
def partitionInfoOf (metadata_partition : MetadataPartition) : BrokerMetadata.PartitionInfo :=
  let partitionInfo := metadata_partition.replicas.foldl
    BrokerMetadata.PartitionInfo.addReplica { leader := metadata_partition.leader }
  metadata_partition.isrs.foldl BrokerMetadata.PartitionInfo.addInSyncReplica partitionInfo

/-- The body of the loop over the partitions. -/
def copyPartition (metadata : BrokerMetadata) (metadata_partition : MetadataPartition) :
    BrokerMetadata :=
  if metadata_partition.err ≠ RD_KAFKA_RESP_ERR_NO_ERROR then metadata
  else metadata.addPartitionInfo metadata_partition.id (partitionInfoOf metadata_partition)

/-- Construct the BrokerMetadata. -/
def constructMetadata (rk_metadata : RkMetadata) (metadata_topic : MetadataTopic) :
    BrokerMetadata :=
  let metadata : BrokerMetadata := { _topic := metadata_topic.topic.val }
  let metadata := metadata.setOrigNodeName
    ((rk_metadata.orig_broker_name.map Subtype.val).getD "")
  let metadata := rk_metadata.brokers.foldl
    (fun metadata broker => metadata.addNode broker.id broker.host.val broker.port) metadata
  metadata_topic.partitions.foldl copyPartition metadata

def fetchBrokerMetadata (topic : Topic) (rk_metadata : RkMetadata) : Option BrokerMetadata :=
  if rk_metadata.err ≠ RD_KAFKA_RESP_ERR_NO_ERROR then none
  else
    match rk_metadata.topics.find? (·.topic.val = topic) with
    | none => none
    | some metadata_topic =>
      if metadata_topic.err ≠ RD_KAFKA_RESP_ERR_NO_ERROR then none
      else some (constructMetadata rk_metadata metadata_topic)

/-! ## §4. What is copied. -/

/-- The replicas are copied in order. -/
theorem partitionInfoOf_eq (p : MetadataPartition) :
    partitionInfoOf p = ⟨p.leader, p.replicas, p.isrs⟩ := by
  have hreplicas (ids : List Int32) (info : BrokerMetadata.PartitionInfo) :
      ids.foldl BrokerMetadata.PartitionInfo.addReplica info =
        { info with replicas := info.replicas ++ ids } := by
    induction ids generalizing info with
    | nil => simp
    | cons id ids ih => rw [List.foldl_cons, ih]; simp [BrokerMetadata.PartitionInfo.addReplica]
  have hisrs (ids : List Int32) (info : BrokerMetadata.PartitionInfo) :
      ids.foldl BrokerMetadata.PartitionInfo.addInSyncReplica info =
        { info with inSyncReplicas := info.inSyncReplicas ++ ids } := by
    induction ids generalizing info with
    | nil => simp
    | cons id ids ih =>
      rw [List.foldl_cons, ih]; simp [BrokerMetadata.PartitionInfo.addInSyncReplica]
  rw [partitionInfoOf, hreplicas, hisrs]
  rfl

/-- Adding nodes stores them, and leaves the rest alone. -/
theorem foldl_addNode (brokers : List MetadataBroker) (metadata : BrokerMetadata) :
    brokers.foldl (fun metadata broker => metadata.addNode broker.id broker.host.val broker.port)
        metadata =
      { metadata with
        _nodes := store MetadataBroker.id (fun broker => ⟨broker.id, broker.host.val, broker.port⟩)
          brokers metadata._nodes } := by
  induction brokers generalizing metadata with
  | nil => rfl
  | cons broker brokers ih =>
    rw [List.foldl_cons, ih]
    rfl

/-- The partitions in order. -/
def healthy (partitions : List MetadataPartition) : List MetadataPartition :=
  partitions.filter (·.err = RD_KAFKA_RESP_ERR_NO_ERROR)

theorem foldl_copyPartition (partitions : List MetadataPartition) (metadata : BrokerMetadata) :
    partitions.foldl copyPartition metadata =
      { metadata with
        _partitions := storeNew MetadataPartition.id partitionInfoOf (healthy partitions)
          metadata._partitions } := by
  induction partitions generalizing metadata with
  | nil => rfl
  | cons p partitions ih =>
    rw [List.foldl_cons, ih, copyPartition]
    by_cases h : p.err = RD_KAFKA_RESP_ERR_NO_ERROR
    · have hcons : healthy (p :: partitions) = p :: healthy partitions := by simp [healthy, h]
      rw [if_neg (not_not_intro h), hcons]
      rfl
    · have hcons : healthy (p :: partitions) = healthy partitions := by simp [healthy, h]
      rw [if_pos h, hcons]

/-! ## §5. What is told. -/

/-- The metadata of a topic in librdkafka's answer. -/
structure Describes (rk_metadata : RkMetadata) (metadata_topic : MetadataTopic)
    (metadata : BrokerMetadata) : Prop where
  topic : metadata._topic = metadata_topic.topic.val
  origNodeName : metadata._origNodeName =
    (rk_metadata.orig_broker_name.map Subtype.val).getD ""
  /-- The last broker of an id. -/
  nodes : ∀ id : Int32, metadata._nodes[id]? = (lastFor MetadataBroker.id id rk_metadata.brokers).map
    fun broker => ⟨broker.id, broker.host.val, broker.port⟩
  /-- The first partition of an id that is in order. -/
  partitions : ∀ p : Partition, metadata._partitions[p]? =
    ((healthy metadata_topic.partitions).find? (·.id = p)).map
      fun partition => ⟨partition.leader, partition.replicas, partition.isrs⟩

theorem describes_constructMetadata (rk_metadata : RkMetadata) (metadata_topic : MetadataTopic) :
    Describes rk_metadata metadata_topic (constructMetadata rk_metadata metadata_topic) := by
  simp only [constructMetadata, foldl_addNode, foldl_copyPartition]
  refine ⟨rfl, rfl, fun id => ?_, fun p => ?_⟩
  · refine (getElem?_store _ _ _ _ id).trans ?_
    simp [BrokerMetadata.setOrigNodeName]
  · refine (getElem?_storeNew _ _ _ _ p).trans ?_
    rw [funext partitionInfoOf_eq]
    simp [BrokerMetadata.setOrigNodeName]

/-- There is only one metadata of a topic. -/
theorem Describes.eq {rk_metadata : RkMetadata} {metadata_topic : MetadataTopic}
    {metadata metadata' : BrokerMetadata} (h : Describes rk_metadata metadata_topic metadata)
    (h' : Describes rk_metadata metadata_topic metadata') : metadata = metadata' := by
  apply BrokerMetadata.ext
  · rw [h.topic, h'.topic]
  · rw [h.origNodeName, h'.origNodeName]
  · exact Std.ExtTreeMap.ext_getElem? fun {id} => by rw [h.nodes, h'.nodes]
  · exact Std.ExtTreeMap.ext_getElem? fun {p} => by rw [h.partitions, h'.partitions]

/-- **There is metadata** exactly when librdkafka answers and the first topic of the name is in
order, and it is that topic's. -/
theorem fetchBrokerMetadata_spec (topic : Topic) (rk_metadata : RkMetadata)
    (metadata : BrokerMetadata) :
    fetchBrokerMetadata topic rk_metadata = some metadata ↔
      rk_metadata.err = RD_KAFKA_RESP_ERR_NO_ERROR ∧
      ∃ pre metadata_topic post, rk_metadata.topics = pre ++ metadata_topic :: post ∧
        (∀ t ∈ pre, t.topic.val ≠ topic) ∧ metadata_topic.topic.val = topic ∧
        metadata_topic.err = RD_KAFKA_RESP_ERR_NO_ERROR ∧
        Describes rk_metadata metadata_topic metadata := by
  have hfind (metadata_topic : MetadataTopic) :
      rk_metadata.topics.find? (·.topic.val = topic) = some metadata_topic ↔
        metadata_topic.topic.val = topic ∧ ∃ pre post,
          rk_metadata.topics = pre ++ metadata_topic :: post ∧
            ∀ t ∈ pre, t.topic.val ≠ topic := by
    simp [List.find?_eq_some_iff_append]
  unfold fetchBrokerMetadata
  constructor
  · intro h
    split at h
    next => simp at h
    next herr =>
      split at h
      next => simp at h
      next metadata_topic htopic =>
        split at h
        next => simp at h
        next htopicErr =>
          obtain rfl := Option.some.inj h
          obtain ⟨hname, pre, post, heq, hpre⟩ := (hfind metadata_topic).mp htopic
          exact ⟨not_not.mp herr, pre, metadata_topic, post, heq, hpre, hname,
            not_not.mp htopicErr, describes_constructMetadata rk_metadata metadata_topic⟩
  · intro h
    obtain ⟨herr, pre, metadata_topic, post, heq, hpre, hname, htopicErr, hdescribes⟩ := h
    rw [if_neg (not_not_intro herr), (hfind metadata_topic).mpr ⟨hname, pre, post, heq, hpre⟩]
    simp only [if_neg (not_not_intro htopicErr)]
    rw [(describes_constructMetadata rk_metadata metadata_topic).eq hdescribes]

/-! ## §6. Its text. -/

namespace BrokerMetadata

theorem streamNodes_eq (metadata : BrokerMetadata) (nodeIds : List Int32) :
    metadata.streamNodes nodeIds = joined ", " (nodeIds.map metadata.getNodeDescription) :=
  foldl_unlessFirst _

/-- The partitions are joined, each with its nodes joined. -/
theorem toString_eq (metadata : BrokerMetadata) :
    metadata.toString =
      "originatingNode[" ++ metadata._origNodeName ++ "], topic[" ++ metadata._topic
        ++ "], partitions\x7b"
        ++ joined "; " (metadata._partitions.toList.map fun partitionInfoPair =>
          ToString.toString partitionInfoPair.1.toInt ++ ": " ++
            ("leader[" ++ metadata.getNodeDescription partitionInfoPair.2.leader ++ "], replicas["
              ++ joined ", " (partitionInfoPair.2.replicas.map metadata.getNodeDescription)
              ++ "], inSyncReplicas["
              ++ joined ", " (partitionInfoPair.2.inSyncReplicas.map metadata.getNodeDescription)
              ++ "]"))
        ++ "\x7d" := by
  unfold toString
  rw [foldl_unlessFirst]
  simp only [toStringPartitionInfo, streamNodes_eq]

end BrokerMetadata

end ModernCppKafka.Clients
