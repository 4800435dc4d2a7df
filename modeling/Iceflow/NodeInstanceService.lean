import Iceflow.Node

/-! The gRPC service of a node instance. Messages are the records of the protobuf
schema; a field that is not set keeps its default. The transport is left out. -/
namespace Iceflow
variable [Platform] {μ : Type}

structure RepartitionRequest where
  edgeName : String
  lowerPartitionBound : UInt32
  upperPartitionBound : UInt32

structure RepartitionResponse where
  edgeName : String
  success : Bool
  lowerPartitionBound : UInt32
  upperPartitionBound : UInt32
  deriving DecidableEq

structure StatsResponse.ProductionStats where
  edgeName : String
  unitsProduced : UInt32
  idleTime : UInt64
  deriving DecidableEq

structure StatsResponse.ConsumptionStats where
  edgeName : String
  unitsConsumed : UInt32
  idleTime : UInt64
  deriving DecidableEq

structure StatsResponse where
  productionStats : List StatsResponse.ProductionStats
  consumptionStats : List StatsResponse.ConsumptionStats
  deriving DecidableEq

inductive Status where
  | ok
  | invalidArgument (message : String)
  deriving DecidableEq

inductive NodeInstance.Request where
  | repartition (request : RepartitionRequest)
  | queryStats

inductive NodeInstance.Response where
  | repartition (status : Status) (response : RepartitionResponse)
  | queryStats (status : Status) (response : StatsResponse)
  deriving DecidableEq

namespace NodeInstanceService

/-- The vector after `std::iota`: its length is the difference of the bounds in
32 bits, and its elements count up from the lower bound in 32 bits. -/
def partitionRange (lowerPartitionBound upperPartitionBound : UInt32) : List UInt32 :=
  (List.range (upperPartitionBound - lowerPartitionBound).toNat).map
    (fun i => lowerPartitionBound + UInt32.ofNat i)

def repartition (n : IceFlow μ) (request : RepartitionRequest) :
    (Status × RepartitionResponse) × IceFlow μ :=
  let partitions := partitionRange request.lowerPartitionBound request.upperPartitionBound
  let response : RepartitionResponse :=
    ⟨"", false, request.lowerPartitionBound, request.upperPartitionBound⟩
  match n.repartitionConsumer request.edgeName partitions with
  | (.ok (), n) => ((.ok, { response with success := true }), n)
  | (.error _, n) => ((.invalidArgument "Consumer repartitioning has failed.", response), n)

/-- The loops that fill the response from the two maps, in the maps' order. -/
def encodeStats (consumerStats : StringMap EdgeConsumptionStats)
    (producerStats : StringMap EdgeProductionStats) : StatsResponse where
  consumptionStats := consumerStats.entries.map (fun consumerStat =>
    ⟨consumerStat.1, consumerStat.2.unitsConsumed.toUInt32, consumerStat.2.idleTime⟩)
  productionStats := producerStats.entries.map (fun producerStat =>
    ⟨producerStat.1, producerStat.2.unitsProduced.toUInt32, producerStat.2.idleTime⟩)

/-- Over the readings of the clock during the two queries. -/
def queryStats (n : IceFlow μ) (consumerClock producerClock : String → Int) :
    (Status × StatsResponse) × IceFlow μ :=
  let (consumerStats, n) := n.getConsumerStats consumerClock
  let (producerStats, n) := n.getProducerStats producerClock
  ((.ok, encodeStats consumerStats producerStats), n)

end NodeInstanceService
end Iceflow
