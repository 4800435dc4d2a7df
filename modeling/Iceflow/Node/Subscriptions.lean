import Iceflow.Node.Frame

/-! The subscription table of a node and the handles its consumers hold. A live
subscription of a consumer is under a handle that the consumer holds, and a
handle that a consumer holds is never the handle of another receiver. Statistics
queries leave handles behind that are no longer live, so the converse fails. -/
namespace Iceflow
open Registration
variable [Platform] {μ : Type}

theorem unsubscribe_all (svs : SVSPubSub) (handles : List Handle) :
    handles.foldl SVSPubSub.unsubscribe svs =
      { svs with subscriptions := svs.subscriptions.unregisterAll handles } := by
  induction handles generalizing svs with
  | nil => rfl
  | cons h rest ih => exact ih (svs.unsubscribe h)

namespace IceflowConsumer

theorem unsubscribeFromAllPartitions_live (consumer : IceflowConsumer μ) {svs : SVSPubSub}
    (live : svs.expired = false) :
    consumer.unsubscribeFromAllPartitions svs =
      ({ consumer with subscriptionHandles := [] },
        { svs with
          subscriptions := svs.subscriptions.unregisterAll consumer.subscriptionHandles }) := by
  simp only [unsubscribeFromAllPartitions, SVSPubSub.lock_of_live live, unsubscribe_all]

def subscriptionFor (topic : Name) (edge : String) (partition : UInt32) : Subscription :=
  ⟨topic ++ [Platform.fromNumber partition.toUInt64], .consumer edge⟩

theorem subscriptionFor_topic_inj {topic : Name} {edge : String} {p q : UInt32} :
    topic ++ [Platform.fromNumber p.toUInt64] = (subscriptionFor topic edge q).topic ↔ q = p := by
  rw [subscriptionFor, List.append_cancel_left_eq, List.singleton_inj,
    Platform.fromNumber_injective.eq_iff, UInt32.toUInt64_inj, eq_comm]

theorem subscribeToTopicPartition_parsed (consumer : IceflowConsumer μ) (svs : SVSPubSub)
    (live : svs.expired = false) {topic : Name}
    (parsed : Platform.nameOfUri consumer.subTopic = some topic) (partition : UInt32) :
    consumer.subscribeToTopicPartition svs partition =
      let made := svs.subscriptions.register Platform.allocator
        (subscriptionFor topic consumer.upstreamEdgeName partition)
      .ok ({ consumer with subscriptionHandles := consumer.subscriptionHandles ++ [made.2] },
        { svs with subscriptions := made.1 }) := by
  simp only [subscribeToTopicPartition, SVSPubSub.lock_of_live live, Results.bind_ok]
  exact ⟨_, partitionName_parsed parsed partition, rfl⟩

theorem subscribeToTopicPartition_unparsed (consumer : IceflowConsumer μ) (svs : SVSPubSub)
    (live : svs.expired = false) (unparsed : Platform.nameOfUri consumer.subTopic = none)
    (partition : UInt32) :
    consumer.subscribeToTopicPartition svs partition = .error (.nameError consumer.subTopic) := by
  simp only [subscribeToTopicPartition, SVSPubSub.lock_of_live live, prepareDataName, partitionName,
    name, unparsed, bind, Except.bind]

/-- What the subscription loop adds: one entry for each element of the list, in
order, under handles that were never given out. -/
structure Subscribed (consumer : IceflowConsumer μ) (svs : SVSPubSub) (topic : Name)
    (partitions : List UInt32) (consumer' : IceflowConsumer μ) (svs' : SVSPubSub)
    (added : List Handle) : Prop where
  consumer_eq : consumer' =
    { consumer with subscriptionHandles := consumer.subscriptionHandles ++ added }
  svs_eq : svs' = { svs with subscriptions := svs'.subscriptions }
  entries : svs'.subscriptions.entries = svs.subscriptions.entries ++
    added.zip (partitions.map (subscriptionFor topic consumer.upstreamEdgeName))
  length : added.length = partitions.length
  issued : svs'.subscriptions.issued = added.reverse ++ svs.subscriptions.issued
  fresh : ∀ h ∈ added, h ∉ svs.subscriptions.issued

theorem subscribeToPartitions_parsed (consumer : IceflowConsumer μ) (svs : SVSPubSub)
    (live : svs.expired = false) {topic : Name}
    (parsed : Platform.nameOfUri consumer.subTopic = some topic) (partitions : List UInt32) :
    ∃ consumer' svs' added,
      consumer.subscribeToPartitions svs partitions = (.ok (), consumer', svs') ∧
      Subscribed consumer svs topic partitions consumer' svs' added := by
  induction partitions generalizing consumer svs with
  | nil => exact ⟨consumer, svs, [], rfl, ⟨by simp, rfl, by simp, rfl, by simp, by simp⟩⟩
  | cons p rest ih =>
    simp only [subscribeToPartitions, subscribeToTopicPartition_parsed consumer svs live parsed]
    generalize made_eq : svs.subscriptions.register Platform.allocator
      (subscriptionFor topic consumer.upstreamEdgeName p) = made
    have first_fresh : made.2 ∉ svs.subscriptions.issued := by
      rw [← made_eq]
      exact Registry.register_fresh _ _ _
    have first_entries : made.1.entries = svs.subscriptions.entries ++
        [(made.2, subscriptionFor topic consumer.upstreamEdgeName p)] := by
      rw [← made_eq, Registry.entries_register]
    have first_issued : made.1.issued = made.2 :: svs.subscriptions.issued := by
      rw [← made_eq, Registry.issued_register]
    obtain ⟨consumer', svs', added, runs, loop⟩ :=
      ih { consumer with subscriptionHandles := consumer.subscriptionHandles ++ [made.2] }
        { svs with subscriptions := made.1 } live parsed
    refine ⟨consumer', svs', made.2 :: added, runs, ?_, ?_, ?_, ?_, ?_, ?_⟩
    · simpa using loop.consumer_eq
    · exact loop.svs_eq
    · rw [loop.entries, first_entries, List.append_assoc]
      rfl
    · simp [loop.length]
    · rw [loop.issued, first_issued]
      simp
    · intro h member
      rcases List.mem_cons.mp member with rfl | later
      · exact first_fresh
      · have notIssued := loop.fresh h later
        rw [first_issued] at notIssued
        exact fun old => notIssued (List.mem_cons_of_mem _ old)

theorem subscribeToPartitions_unparsed (consumer : IceflowConsumer μ) (svs : SVSPubSub)
    (live : svs.expired = false) (unparsed : Platform.nameOfUri consumer.subTopic = none)
    (partitions : List UInt32) :
    consumer.subscribeToPartitions svs partitions =
      (if partitions = [] then .ok () else .error (.nameError consumer.subTopic),
        consumer, svs) := by
  cases partitions with
  | nil => rfl
  | cons p rest =>
    simp [subscribeToPartitions, subscribeToTopicPartition_unparsed consumer svs live unparsed]

end IceflowConsumer

namespace IceFlow

def handles (n : IceFlow μ) (edge : String) : List Handle :=
  ((n.iceflowConsumers.lookup edge).map IceflowConsumer.subscriptionHandles).getD []

/-- The live subscriptions made by the consumer of an edge. -/
def subscriptionsOf (n : IceFlow μ) (edge : String) : List (Handle × Subscription) :=
  n.svsPubSub.subscriptions.entries.filter (fun entry => entry.2.receiver = .consumer edge)

/-- The topic of an edge as producers and consumers write it. -/
def topicOf (n : IceFlow μ) (edge : String) : String := n.syncPrefix ++ "/" ++ edge

theorem Frame.topicOf {n n' : IceFlow μ} (frame : Frame n n') (edge : String) :
    n'.topicOf edge = n.topicOf edge := by
  rw [IceFlow.topicOf, IceFlow.topicOf, frame.syncPrefix]

theorem Frame.mem_producers {n n' : IceFlow μ} (frame : Frame n n') (edge : String) :
    edge ∈ n'.iceflowProducers ↔ edge ∈ n.iceflowProducers :=
  StringMap.mem_congr (frame.producers edge)

theorem Frame.mem_consumers {n n' : IceFlow μ} (frame : Frame n n') (edge : String) :
    edge ∈ n'.iceflowConsumers ↔ edge ∈ n.iceflowConsumers :=
  StringMap.mem_congr (frame.consumers edge)

structure WellFormed (n : IceFlow μ) : Prop where
  live : n.svsPubSub.expired = false
  nodePrefix_parses : Platform.nameOfUri n.nodePrefix = some n.svsPubSub.nodePrefix
  syncPrefix_parses : Platform.nameOfUri n.syncPrefix = some n.svsPubSub.syncPrefix
  consumer_fixed : ∀ edge consumer, n.iceflowConsumers.lookup edge = some consumer →
    consumer.subTopic = n.topicOf edge ∧ consumer.upstreamEdgeName = edge
  producer_fixed : ∀ edge producer, n.iceflowProducers.lookup edge = some producer →
    producer.pubTopic = n.topicOf edge ∧ producer.nodePrefix = n.nodePrefix ∧
      producer.downstreamEdgeName = edge
  captured : ∀ entry ∈ n.svsPubSub.subscriptions.entries, ∀ nodePrefix syncPrefix,
    entry.2.receiver = .backchannel nodePrefix syncPrefix →
      nodePrefix = n.nodePrefix ∧ syncPrefix = n.syncPrefix
  held : ∀ entry ∈ n.svsPubSub.subscriptions.entries, ∀ edge,
    entry.2.receiver = .consumer edge → entry.1 ∈ n.handles edge
  owner : ∀ entry ∈ n.svsPubSub.subscriptions.entries, ∀ edge,
    entry.1 ∈ n.handles edge → entry.2.receiver = .consumer edge
  handles_issued : ∀ edge, ∀ h ∈ n.handles edge, h ∈ n.svsPubSub.subscriptions.issued
  partition_topic : ∀ entry ∈ n.svsPubSub.subscriptions.entries, ∀ edge,
    entry.2.receiver = .consumer edge → ∃ topic partition,
      Platform.nameOfUri (n.topicOf edge) = some topic ∧
        entry.2 = IceflowConsumer.subscriptionFor topic edge partition

theorem handles_of_identity {n n' : IceFlow μ} {edge : String}
    (same : (n'.iceflowConsumers.lookup edge).map IceflowConsumer.identity =
      (n.iceflowConsumers.lookup edge).map IceflowConsumer.identity) :
    n'.handles edge = n.handles edge := by
  have projected := congrArg (Option.map (fun view => view.2.2)) same
  simp only [Option.map_map] at projected
  exact congrArg (fun held => Option.getD held []) projected

theorem Frame.wellFormed {n n' : IceFlow μ} (frame : Frame n n') (wf : WellFormed n) :
    WellFormed n' := by
  have handles (edge : String) : n'.handles edge = n.handles edge :=
    handles_of_identity (frame.consumers edge)
  have topics (edge : String) : n'.topicOf edge = n.topicOf edge := frame.topicOf edge
  constructor
  case live => rw [frame.expired, wf.live]
  case nodePrefix_parses => rw [frame.nodePrefix, frame.svsNodePrefix, wf.nodePrefix_parses]
  case syncPrefix_parses => rw [frame.syncPrefix, frame.svsSyncPrefix, wf.syncPrefix_parses]
  case consumer_fixed =>
    intro edge consumer found
    obtain ⟨old, found', same⟩ := StringMap.exists_of_map_eq (frame.consumers edge) found
    obtain ⟨topic, named⟩ := wf.consumer_fixed edge old found'
    simp only [IceflowConsumer.identity, Prod.mk.injEq] at same
    exact ⟨by rw [same.1, topic, topics], by rw [same.2.1, named]⟩
  case producer_fixed =>
    intro edge producer found
    obtain ⟨old, found', same⟩ := StringMap.exists_of_map_eq (frame.producers edge) found
    obtain ⟨topic, nodePrefix, named⟩ := wf.producer_fixed edge old found'
    simp only [IceflowProducer.identity, Prod.mk.injEq] at same
    exact ⟨by rw [same.1, topic, topics], by rw [same.2.1, nodePrefix, frame.nodePrefix],
      by rw [same.2.2.2.2, named]⟩
  case captured =>
    rw [frame.subscriptions, frame.nodePrefix, frame.syncPrefix]
    exact wf.captured
  case held =>
    rw [frame.subscriptions]
    intro entry member edge received
    rw [handles]
    exact wf.held entry member edge received
  case owner =>
    rw [frame.subscriptions]
    intro entry member edge held
    rw [handles] at held
    exact wf.owner entry member edge held
  case handles_issued =>
    rw [frame.subscriptions]
    intro edge h held
    rw [handles] at held
    exact wf.handles_issued edge h held
  case partition_topic =>
    rw [frame.subscriptions]
    intro entry member edge received
    rw [topics]
    exact wf.partition_topic entry member edge received

end IceFlow
end Iceflow
