import Iceflow.Producer

/-! Consumers of an edge. A callback of the application is a program over the
application's memory: it may hand items to producers, throw, or return. The part
of `subscribeCallBack` that runs the callback is defined with the node. -/
namespace Iceflow

/-- What a callback does on one item. `push` calls a producer callback and goes
on only if the call returns; `memory` is what the application is left with where
the program stops. -/
inductive Script (μ : Type) where
  | done (memory : μ)
  | throws (memory : μ) (what : String)
  | push (downstreamEdgeName : String) (data : Bytes) (memory : μ) (next : Script μ)

/-- Over the application's memory at the call and the item's bytes. -/
abbrev ConsumerCallback (μ : Type) := μ → Bytes → Script μ

/-- A call of the producer callback, followed by the rest of the program. -/
abbrev ProducerCallback (μ : Type) := String → Bytes → μ → Script μ → Script μ

abbrev ProsumerCallback (μ : Type) := μ → Bytes → ProducerCallback μ → Script μ

variable [Platform] {μ : Type}

structure IceflowConsumer (μ : Type) [Platform] where
  subTopic : String
  subscriptionHandles : List Handle
  consumptionTimestamps : List Int
  maxConsumptionAge : Int
  consumerCallback : Option (ConsumerCallback μ)
  upstreamEdgeName : String
  idleSince : Int

namespace IceflowConsumer

def construct (syncPrefix upstreamEdgeName : String) (now : Int) : IceflowConsumer μ :=
  ⟨syncPrefix ++ "/" ++ upstreamEdgeName, [], [], oneSecond, none, upstreamEdgeName, now⟩

def saveTimestamp (consumer : IceflowConsumer μ) (timestamp : Int) : IceflowConsumer μ :=
  { consumer with
    consumptionTimestamps := cleanUpTimestamps consumer.maxConsumptionAge timestamp
      (consumer.consumptionTimestamps ++ [timestamp])
    idleSince := timestamp }

def getConsumptionStats (consumer : IceflowConsumer μ) (now : Int) :
    EdgeConsumptionStats × IceflowConsumer μ :=
  let consumptionTimestamps :=
    cleanUpTimestamps consumer.maxConsumptionAge now consumer.consumptionTimestamps
  (⟨UInt64.ofNat consumptionTimestamps.length, determineIdleTime consumer.idleSince now⟩,
    { consumer with consumptionTimestamps })

def prepareDataName (consumer : IceflowConsumer μ) (partitionNumber : UInt32) :
    Except Exception Name :=
  partitionName consumer.subTopic partitionNumber

/-- The subscription is bound to the consumer that the node holds for the edge. -/
def subscribeToTopicPartition (consumer : IceflowConsumer μ) (svs : SVSPubSub)
    (topicPartition : UInt32) : Except Exception (IceflowConsumer μ × SVSPubSub) :=
  match svs.lock with
  | none => .error (.runtimeError "SVS instance has already expired.")
  | some validSvs => do
    let dataId ← consumer.prepareDataName topicPartition
    let (svs, subscriptionHandle) :=
      validSvs.subscribe dataId (.consumer consumer.upstreamEdgeName)
    return ({ consumer with
      subscriptionHandles := consumer.subscriptionHandles ++ [subscriptionHandle] }, svs)

def unsubscribeFromAllPartitions (consumer : IceflowConsumer μ) (svs : SVSPubSub) :
    IceflowConsumer μ × SVSPubSub :=
  let svs := match svs.lock with
    | some validSvs => consumer.subscriptionHandles.foldl SVSPubSub.unsubscribe validSvs
    | none => svs
  ({ consumer with subscriptionHandles := [] }, svs)

/-- The destructor: what it leaves of the shared instance. -/
def destroy (consumer : IceflowConsumer μ) (svs : SVSPubSub) : SVSPubSub :=
  (consumer.unsubscribeFromAllPartitions svs).2

/-- The loop of `repartition`, with the exception that ended it. Subscriptions
made before the exception stay. -/
def subscribeToPartitions (consumer : IceflowConsumer μ) (svs : SVSPubSub) :
    List UInt32 → Except Exception Unit × IceflowConsumer μ × SVSPubSub
  | [] => (.ok (), consumer, svs)
  | partition :: rest =>
    match consumer.subscribeToTopicPartition svs partition with
    | .error e => (.error e, consumer, svs)
    | .ok (consumer, svs) => subscribeToPartitions consumer svs rest

/-- Only a `std::runtime_error` turns into `false`. -/
def repartition (consumer : IceflowConsumer μ) (svs : SVSPubSub) (partitions : List UInt32) :
    Except Exception Bool × IceflowConsumer μ × SVSPubSub :=
  let (consumer, svs) := consumer.unsubscribeFromAllPartitions svs
  match consumer.subscribeToPartitions svs partitions with
  | (.ok (), consumer, svs) => (.ok true, consumer, svs)
  | (.error e, consumer, svs) =>
    (if e.isRuntimeError then .ok false else .error e, consumer, svs)

def setConsumerCallback (consumer : IceflowConsumer μ) (callback : ConsumerCallback μ) :
    IceflowConsumer μ :=
  { consumer with consumerCallback := some callback }

end IceflowConsumer
end Iceflow
