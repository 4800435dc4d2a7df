import Iceflow.Consumer
import Iceflow.DagParser
import Iceflow.Foundation.Transition

/-! The `IceFlow` object of a node. Calls that throw keep what they changed
before the exception. `history` records what happens to consumers; no modelled
function reads it. -/
namespace Iceflow
variable [Platform] {μ : Type}

/-- What happens to the consumer of an edge. -/
inductive Event where
  /-- Its callback is called with the bytes of an item. -/
  | invoked (upstreamEdgeName : String) (item : SubscriptionData)
  /-- Its callback has returned. -/
  | completed (upstreamEdgeName : String) (item : SubscriptionData)
  /-- A consumption time is recorded. -/
  | recorded (upstreamEdgeName : String) (timestamp : Int)
  deriving DecidableEq

structure IceFlow (μ : Type) [Platform] where
  nodePrefix : String
  syncPrefix : String
  svsPubSub : SVSPubSub
  iceflowProducers : StringMap IceflowProducer
  iceflowConsumers : StringMap (IceflowConsumer μ)
  node : Node
  downstreamEdges : List Edge
  upstreamEdges : List Edge
  /-- The memory that the callbacks of the application work on. -/
  memory : μ
  history : List Event

/-- Besides the DAG and the node name: the random parts of the node prefix and
of the producers' generators, the clock as each consumer reads it, and the
application's memory. -/
structure Environment (μ : Type) where
  uuid : String
  generator : String → Stream' UInt32
  now : String → Int
  memory : μ

namespace IceFlow

def generateNodePrefix (applicationName uuid : String) : String :=
  "/node-" ++ applicationName ++ "/" ++ uuid

/-- The loop over the downstream edges: a later edge with an id that is taken
still constructs a producer, which subscribes, but is not kept. -/
def constructProducers (nodePrefix syncPrefix : String) (generator : String → Stream' UInt32) :
    List Edge → StringMap IceflowProducer → SVSPubSub →
      Except Exception (StringMap IceflowProducer × SVSPubSub)
  | [], producers, svs => .ok (producers, svs)
  | downstreamEdge :: rest, producers, svs =>
    match IceflowProducer.construct svs nodePrefix syncPrefix downstreamEdge.id
        downstreamEdge.maxPartitions (generator downstreamEdge.id) with
    | .error e => .error e
    | .ok (iceflowProducer, svs) =>
      constructProducers nodePrefix syncPrefix generator rest
        (producers.emplace downstreamEdge.id iceflowProducer) svs

/-- The loop over the upstream edges. The local consumer that is copied into the
map holds no handles when it is destroyed. -/
def constructConsumers (syncPrefix : String) (now : String → Int) (upstreamEdges : List Edge) :
    StringMap (IceflowConsumer μ) :=
  upstreamEdges.foldl (fun consumers upstreamEdge =>
    consumers.emplace upstreamEdge.id
      (IceflowConsumer.construct syncPrefix upstreamEdge.id (now upstreamEdge.id))) ∅

def construct (dagParser : DAGParser) (nodeName : String) (environment : Environment μ) :
    Except Exception (IceFlow μ) := do
  let nodePrefix := generateNodePrefix dagParser.applicationName environment.uuid
  let syncPrefix := dagParser.applicationName
  let node ← dagParser.findNodeByName nodeName
  let downstreamEdges := node.downstream
  let upstreamEdges := (dagParser.findUpstreamEdges node.task).map Prod.snd
  let svsPubSub := SVSPubSub.construct (← name syncPrefix) (← name nodePrefix)
  let (iceflowProducers, svsPubSub) ←
    constructProducers nodePrefix syncPrefix environment.generator downstreamEdges ∅ svsPubSub
  return {
    nodePrefix, syncPrefix, svsPubSub, iceflowProducers
    iceflowConsumers := constructConsumers syncPrefix environment.now upstreamEdges
    node, downstreamEdges, upstreamEdges
    memory := environment.memory
    history := [] }

/-- The text both kinds of lookups throw with. -/
def noConsumer (upstreamEdgeName : String) : Exception :=
  .runtimeError ("Consumer for upstream edge " ++ upstreamEdgeName ++ " does not exist!")

def noProducer (downstreamEdgeName : String) : Exception :=
  .runtimeError ("Producer for downstream edge " ++ downstreamEdgeName ++ " does not exist!")

/-- The boolean that `repartition` returns is dropped. -/
def repartitionConsumer (n : IceFlow μ) (upstreamEdgeName : String) (partitions : List UInt32) :
    Except Exception Unit × IceFlow μ :=
  match n.iceflowConsumers.lookup upstreamEdgeName with
  | none => (.error (noConsumer upstreamEdgeName), n)
  | some consumer =>
    let (result, consumer, svsPubSub) := consumer.repartition n.svsPubSub partitions
    (result.map (fun _ => ()),
      { n with
        svsPubSub
        iceflowConsumers := n.iceflowConsumers.insert upstreamEdgeName consumer })

def repartitionProducer (n : IceFlow μ) (downstreamEdgeName : String)
    (numberOfPartitions : UInt64) : Except Exception Unit × IceFlow μ :=
  match n.iceflowProducers.lookup downstreamEdgeName with
  | none => (.error (noProducer downstreamEdgeName), n)
  | some producer =>
    match producer.setTopicPartitions numberOfPartitions with
    | .error e => (.error e, n)
    | .ok producer =>
      (.ok (), { n with
        iceflowProducers := n.iceflowProducers.insert downstreamEdgeName producer })

def pushData (n : IceFlow μ) (downstreamEdgeName : String) (payload : Bytes) :
    Except Exception Unit × IceFlow μ :=
  match n.iceflowProducers.lookup downstreamEdgeName with
  | none => (.error (noProducer downstreamEdgeName), n)
  | some producer =>
    let (result, producer, svsPubSub) := producer.pushData n.svsPubSub payload
    (result, { n with
      svsPubSub
      iceflowProducers := n.iceflowProducers.insert downstreamEdgeName producer })

def registerConsumerCallback (n : IceFlow μ) (upstreamEdgeName : String)
    (consumerCallback : ConsumerCallback μ) : Except Exception Unit × IceFlow μ :=
  match n.iceflowConsumers.lookup upstreamEdgeName with
  | none => (.error (noConsumer upstreamEdgeName), n)
  | some consumer =>
    (.ok (), { n with
      iceflowConsumers := n.iceflowConsumers.insert upstreamEdgeName
        (consumer.setConsumerCallback consumerCallback) })

/-- The producer callback handed to the application calls `pushData`, which is
what a `push` of a script means. -/
def registerProsumerCallback (n : IceFlow μ) (upstreamEdgeName : String)
    (prosumerCallback : ProsumerCallback μ) : Except Exception Unit × IceFlow μ :=
  let producerCallback : ProducerCallback μ := Script.push
  let internalConsumerCallback : ConsumerCallback μ :=
    fun memory data => prosumerCallback memory data producerCallback
  n.registerConsumerCallback upstreamEdgeName internalConsumerCallback

/-- Runs a callback. No call inside is caught: the first one that throws ends it. -/
def runScript (n : IceFlow μ) : Script μ → Except Exception Unit × IceFlow μ
  | .done memory => (.ok (), { n with memory })
  | .throws memory what => (.error (.application what), { n with memory })
  | .push downstreamEdgeName data memory next =>
    match n.pushData downstreamEdgeName data with
    | (.error e, n) => (.error e, { n with memory })
    | (.ok (), n) => n.runScript next

def log (n : IceFlow μ) (event : Event) : IceFlow μ := { n with history := n.history ++ [event] }

def saveTimestamp (n : IceFlow μ) (upstreamEdgeName : String) (timestamp : Int) : IceFlow μ :=
  match n.iceflowConsumers.lookup upstreamEdgeName with
  | none => n
  | some consumer =>
    { n with
      iceflowConsumers := n.iceflowConsumers.insert upstreamEdgeName
        (consumer.saveTimestamp timestamp) }.log (.recorded upstreamEdgeName timestamp)

/-- The end of `subscribeCallBack`: the acknowledgement carries nothing but the
sequence number. -/
def acknowledge (n : IceFlow μ) (consumer : IceflowConsumer μ) (upstreamEdgeName : String)
    (subData : SubscriptionData) : Except Exception Unit × IceFlow μ :=
  match n.svsPubSub.lock with
  | none => (.ok (), n)
  | some validSvs =>
    match backchannelName consumer.subTopic with
    | .error e => (.error e, n)
    | .ok backChannelPrefix =>
      (.ok (), { n with svsPubSub := (validSvs.publish ⟨backChannelPrefix,
        Platform.dumpUnsigned subData.seqNo, .acknowledged upstreamEdgeName subData⟩).1 })

/-- Without a callback an item is dropped with a warning. -/
def subscribeCallBack (n : IceFlow μ) (upstreamEdgeName : String) (subData : SubscriptionData)
    (now : Int) : Except Exception Unit × IceFlow μ :=
  match n.iceflowConsumers.lookup upstreamEdgeName with
  | none => (.ok (), n)
  | some consumer =>
    match consumer.consumerCallback with
    | none => (.ok (), n)
    | some consumerCallback =>
      match (n.log (.invoked upstreamEdgeName subData)).runScript
          (consumerCallback n.memory subData.data) with
      | (.error e, n) => (.error e, n)
      | (.ok (), n) =>
        ((n.log (.completed upstreamEdgeName subData)).saveTimestamp upstreamEdgeName
          now).acknowledge consumer upstreamEdgeName subData

/-- The pub/sub hands a publication of another node to one subscription. A dead
handle or a topic that is no prefix of the name receives nothing. -/
def deliver (n : IceFlow μ) (handle : Handle) (subData : SubscriptionData) (now : Int) :
    Except Exception Unit × IceFlow μ :=
  match n.svsPubSub.subscriptions.find? handle with
  | none => (.ok (), n)
  | some subscription =>
    if subscription.topic <+: subData.name then
      match subscription.receiver with
      | .consumer upstreamEdgeName => n.subscribeCallBack upstreamEdgeName subData now
      | .backchannel nodePrefix syncPrefix =>
        (.ok (), { n with svsPubSub := { n.svsPubSub with
          dataStore := IceflowProducer.handleBackchannel nodePrefix syncPrefix subData.data
            n.svsPubSub.dataStore } })
    else (.ok (), n)

/-- Each round copies a consumer, asks the copy, which reads the clock, and
destroys the copy. -/
def getConsumerStats (n : IceFlow μ) (now : String → Int) :
    StringMap EdgeConsumptionStats × IceFlow μ :=
  n.iceflowConsumers.entries.foldl (fun (result, n) consumer =>
    let (stats, copy) := consumer.2.getConsumptionStats (now consumer.1)
    (StringMap.emplace result consumer.1 stats,
      { n with svsPubSub := copy.destroy n.svsPubSub })) (∅, n)

/-- The destructor of a producer's copy does nothing. -/
def getProducerStats (n : IceFlow μ) (now : String → Int) :
    StringMap EdgeProductionStats × IceFlow μ :=
  (n.iceflowProducers.entries.foldl (fun result producer =>
    StringMap.emplace result producer.1
      (producer.2.getProductionStats (now producer.1)).1) ∅, n)

end IceFlow

inductive Call (μ : Type) where
  | repartitionConsumer (upstreamEdgeName : String) (partitions : List UInt32)
  | repartitionProducer (downstreamEdgeName : String) (numberOfPartitions : UInt64)
  | pushData (downstreamEdgeName : String) (payload : Bytes)
  | registerConsumerCallback (upstreamEdgeName : String) (callback : ConsumerCallback μ)
  | registerProsumerCallback (upstreamEdgeName : String) (callback : ProsumerCallback μ)
  | getConsumerStats (now : String → Int)
  | getProducerStats (now : String → Int)

def Call.perform (n : IceFlow μ) : Call μ → IceFlow μ
  | .repartitionConsumer edge partitions => (n.repartitionConsumer edge partitions).2
  | .repartitionProducer edge count => (n.repartitionProducer edge count).2
  | .pushData edge payload => (n.pushData edge payload).2
  | .registerConsumerCallback edge callback => (n.registerConsumerCallback edge callback).2
  | .registerProsumerCallback edge callback => (n.registerProsumerCallback edge callback).2
  | .getConsumerStats now => (n.getConsumerStats now).2
  | .getProducerStats now => (n.getProducerStats now).2

/-- What can happen to a node: a call, or a delivery by the pub/sub. Exceptions
end the call or the delivery; the caller or the event loop catches them. -/
inductive Op (μ : Type) [Platform] where
  | call (c : Call μ)
  | deliver (handle : Handle) (subData : SubscriptionData) (now : Int)

def Op.perform (n : IceFlow μ) : Op μ → IceFlow μ
  | .call c => c.perform n
  | .deliver handle subData now => (n.deliver handle subData now).2

abbrev IceFlow.run (n : IceFlow μ) (ops : List (Op μ)) : IceFlow μ :=
  Transition.run Op.perform n ops

theorem IceFlow.run_concat (n : IceFlow μ) (ops : List (Op μ)) (op : Op μ) :
    n.run (ops ++ [op]) = op.perform (n.run ops) := Transition.run_append Op.perform n ops [op]

/-- Some construction succeeded with this node. -/
def IceFlow.Constructed (n : IceFlow μ) : Prop :=
  ∃ dagParser nodeName environment, IceFlow.construct dagParser nodeName environment = .ok n

end Iceflow
