import Iceflow.PubSub
import Iceflow.Foundation.Results
import Mathlib.Data.Stream.Init
import Mathlib.Data.Finset.Basic

/-! Producers of an edge. Time points are nanoseconds of the steady clock; the
random generator is the sequence of its outputs. A producer that was constructed
has at least one partition and a topic that parses. -/
namespace Iceflow

structure EdgeProductionStats where
  unitsProduced : UInt64
  idleTime : UInt64
  deriving DecidableEq

structure EdgeConsumptionStats where
  unitsConsumed : UInt64
  idleTime : UInt64
  deriving DecidableEq

/-- The pruning loop of both `cleanUpTimestamps`: entries are removed from the
front until one is met whose `timePassed` is at most the maximum age. -/
def cleanUpTimestamps (maxAge referenceTimepoint : Int) : List Int → List Int
  | [] => []
  | firstValue :: rest =>
    let timePassed := firstValue - referenceTimepoint
    if timePassed ≤ maxAge then firstValue :: rest
    else cleanUpTimestamps maxAge referenceTimepoint rest

/-- Whole milliseconds between two time points, as `uint64_t`. -/
def determineIdleTime (idleSince referenceTimepoint : Int) : UInt64 :=
  UInt64.ofInt ((referenceTimepoint - idleSince).tdiv 1000000)

/-- `std::chrono::seconds(1)` -/
def oneSecond : Int := 1000000000

/-- The loop that fills `m_topicPartitions`; its elements have 32 bits. -/
def partitionsBelow (numberOfPartitions : UInt64) : Finset UInt32 :=
  (List.range numberOfPartitions.toNat).foldl (fun s i => insert (UInt32.ofNat i) s) ∅

/-- `setTopicPartitions` on the field it assigns. -/
def newTopicPartitions (numberOfPartitions : UInt64) : Except Exception (Finset UInt32) :=
  if numberOfPartitions = 0 then
    .error (.invalidArgument "At least one topic partition has to be defined!")
  else .ok (partitionsBelow numberOfPartitions)

theorem ne_zero_of_newTopicPartitions {n : UInt32} {partitions : Finset UInt32}
    (h : newTopicPartitions n.toUInt64 = .ok partitions) : n ≠ 0 := by
  rintro rfl
  simp [newTopicPartitions] at h

variable [Platform]

structure IceflowProducer where
  pubTopic : String
  nodePrefix : String
  syncPrefix : String
  numberOfPartitions : UInt32
  topicPartitions : Finset UInt32
  randomNumberGenerator : Stream' UInt32
  productionTimestamps : List Int
  maxProductionTimestampAge : Int
  downstreamEdgeName : String
  idleSince : Int
  numberOfPartitions_ne_zero : numberOfPartitions ≠ 0
  pubTopic_parses : ∃ topic, Platform.nameOfUri pubTopic = some topic

/-- The names under a topic: producers and consumers append to the same string. -/
def backchannelName (topic : String) : Except Exception Name := do
  return (← name topic) ++ [Platform.backchannel]

def partitionName (topic : String) (partitionNumber : UInt32) : Except Exception Name := do
  return (← name topic) ++ [Platform.fromNumber partitionNumber.toUInt64]

theorem partitionName_ok {uri : String} {p : UInt32} {n : Name} :
    partitionName uri p = .ok n ↔ ∃ topic, Platform.nameOfUri uri = some topic ∧
      topic ++ [Platform.fromNumber p.toUInt64] = n := by
  simp only [partitionName, Results.bind_ok, Results.pure_ok, name_ok_iff]

theorem backchannelName_ok {uri : String} {n : Name} :
    backchannelName uri = .ok n ↔ ∃ topic, Platform.nameOfUri uri = some topic ∧
      topic ++ [Platform.backchannel] = n := by
  simp only [backchannelName, Results.bind_ok, Results.pure_ok, name_ok_iff]

theorem partitionName_parsed {uri : String} {topic : Name}
    (parsed : Platform.nameOfUri uri = some topic) (p : UInt32) :
    partitionName uri p = .ok (topic ++ [Platform.fromNumber p.toUInt64]) :=
  partitionName_ok.mpr ⟨topic, parsed, rfl⟩

theorem backchannelName_parsed {uri : String} {topic : Name}
    (parsed : Platform.nameOfUri uri = some topic) :
    backchannelName uri = .ok (topic ++ [Platform.backchannel]) :=
  backchannelName_ok.mpr ⟨topic, parsed, rfl⟩

namespace IceflowProducer

def prepareDataName (producer : IceflowProducer) (partitionNumber : UInt32) :
    Except Exception Name :=
  partitionName producer.pubTopic partitionNumber

/-- The handler that `setupBackchannel` subscribes, on the data store it
captured. Whatever is thrown inside is caught there. -/
def handleBackchannel (nodePrefix syncPrefix : String) (data : Bytes) (dataStore : DataStore) :
    DataStore :=
  match Platform.parseJson data with
  | none => dataStore
  | some sequenceNumberJson =>
    if sequenceNumberJson.isNumberInteger then
      match sequenceNumberJson.getUInt64, name nodePrefix, name syncPrefix with
      | .ok sequenceNumber, .ok nodeName, .ok syncName =>
        dataStore.erase (SVSPubSub.dataName nodeName syncName sequenceNumber)
      | _, _, _ => dataStore
    else dataStore

def setupBackchannel (svs : SVSPubSub) (pubTopic nodePrefix syncPrefix : String) :
    Except Exception SVSPubSub := do
  let backChannelPrefixName ← backchannelName pubTopic
  match svs.lock with
  | some validSvs =>
    return (validSvs.subscribe backChannelPrefixName (.backchannel nodePrefix syncPrefix)).1
  | none => return svs

theorem parses_of_setupBackchannel {svs svs' : SVSPubSub} {pubTopic nodePrefix syncPrefix : String}
    (h : setupBackchannel svs pubTopic nodePrefix syncPrefix = .ok svs') :
    ∃ topic, Platform.nameOfUri pubTopic = some topic := by
  obtain ⟨_, named, -⟩ := Results.bind_ok.mp h
  obtain ⟨topic, parsed, -⟩ := backchannelName_ok.mp named
  exact ⟨topic, parsed⟩

/-- The constructor. `m_idleSince` keeps its default value, the clock's epoch. -/
def construct (svs : SVSPubSub) (nodePrefix syncPrefix downstreamEdgeName : String)
    (numberOfPartitions : UInt32) (generator : Stream' UInt32) :
    Except Exception (IceflowProducer × SVSPubSub) :=
  let pubTopic := syncPrefix ++ "/" ++ downstreamEdgeName
  match positive : newTopicPartitions numberOfPartitions.toUInt64 with
  | .error e => .error e
  | .ok topicPartitions =>
    match parsed : setupBackchannel svs pubTopic nodePrefix syncPrefix with
    | .error e => .error e
    | .ok svs' =>
      .ok (⟨pubTopic, nodePrefix, syncPrefix, numberOfPartitions, topicPartitions, generator,
        [], oneSecond, downstreamEdgeName, 0, ne_zero_of_newTopicPartitions positive,
        parses_of_setupBackchannel parsed⟩, svs')

/-- Throws before it clears the set, so an error leaves the producer as it is. -/
def setTopicPartitions (producer : IceflowProducer) (numberOfPartitions : UInt64) :
    Except Exception IceflowProducer := do
  return { producer with topicPartitions := ← newTopicPartitions numberOfPartitions }

theorem setTopicPartitions_ok {producer changed : IceflowProducer} {n : UInt64} :
    producer.setTopicPartitions n = .ok changed ↔
      ∃ partitions, newTopicPartitions n = .ok partitions ∧
        { producer with topicPartitions := partitions } = changed := by
  simp only [setTopicPartitions, Results.bind_ok, Results.pure_ok]

/-- The partition drawn, and the producer with the advanced generator. -/
def getNextPartitionNumber (producer : IceflowProducer) : UInt32 × IceflowProducer :=
  (producer.randomNumberGenerator.head % producer.numberOfPartitions,
    { producer with randomNumberGenerator := producer.randomNumberGenerator.tail })

/-- Nothing is drawn or published once the SVS instance has expired. -/
def pushData (producer : IceflowProducer) (svs : SVSPubSub) (data : Bytes) :
    Except Exception Unit × IceflowProducer × SVSPubSub :=
  match svs.lock with
  | none => (.ok (), producer, svs)
  | some validSvs =>
    let (partitionNumber, producer) := producer.getNextPartitionNumber
    match producer.prepareDataName partitionNumber, name producer.nodePrefix with
    | .error e, _ | _, .error e => (.error e, producer, svs)
    | .ok dataID, .ok _ =>
      (.ok (), producer,
        (validSvs.publish ⟨dataID, data, .pushed producer.downstreamEdgeName⟩).1)

/-- With a live instance and prefixes that parse, a push draws once and publishes
under the partition drawn. -/
theorem pushData_publishes (producer : IceflowProducer) (svs : SVSPubSub)
    (live : svs.expired = false) {topic nodeName : Name}
    (parsed : Platform.nameOfUri producer.pubTopic = some topic)
    (nodeParsed : Platform.nameOfUri producer.nodePrefix = some nodeName) (data : Bytes) :
    producer.pushData svs data = (.ok (), producer.getNextPartitionNumber.2,
      (svs.publish ⟨topic ++ [Platform.fromNumber producer.getNextPartitionNumber.1.toUInt64],
        data, .pushed producer.downstreamEdgeName⟩).1) := by
  simp only [pushData, SVSPubSub.lock_of_live live, getNextPartitionNumber, prepareDataName,
    partitionName_parsed parsed, name_ok_iff.mpr nodeParsed]

def getProductionStats (producer : IceflowProducer) (now : Int) :
    EdgeProductionStats × IceflowProducer :=
  let productionTimestamps :=
    cleanUpTimestamps producer.maxProductionTimestampAge now producer.productionTimestamps
  (⟨UInt64.ofNat productionTimestamps.length, determineIdleTime producer.idleSince now⟩,
    { producer with productionTimestamps })

end IceflowProducer
end Iceflow
