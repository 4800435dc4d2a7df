import Iceflow.Node.Subscriptions

/-! A constructed node: its producers subscribed their backchannels, its consumers
hold no handle yet, nothing is published and nothing has happened. -/
namespace Iceflow
open Registration
variable [Platform] {μ : Type}

namespace IceflowProducer

/-- A successful construction subscribes the backchannel and nothing else. -/
structure Built (svs : SVSPubSub) (nodePrefix syncPrefix edge : String) (partitions : UInt32)
    (producer : IceflowProducer) (svs' : SVSPubSub) : Prop where
  identity : producer.identity =
    (syncPrefix ++ "/" ++ edge, nodePrefix, syncPrefix, partitions, edge)
  topicPartitions : newTopicPartitions partitions.toUInt64 = .ok producer.topicPartitions
  subscribed : ∃ topic, Platform.nameOfUri (syncPrefix ++ "/" ++ edge) = some topic ∧
    svs' = (svs.subscribe (topic ++ [Platform.backchannel])
      (.backchannel nodePrefix syncPrefix)).1

theorem construct_built {svs svs' : SVSPubSub} (live : svs.expired = false)
    {nodePrefix syncPrefix edge : String} {partitions : UInt32} {generator : Stream' UInt32}
    {producer : IceflowProducer}
    (constructed : construct svs nodePrefix syncPrefix edge partitions generator =
      .ok (producer, svs')) :
    Built svs nodePrefix syncPrefix edge partitions producer svs' := by
  unfold construct at constructed
  split at constructed
  · contradiction
  · rename_i topicPartitions positive
    dsimp only at constructed
    split at constructed
    · contradiction
    · rename_i after parsed
      cases constructed
      refine ⟨rfl, positive, ?_⟩
      simp only [setupBackchannel, SVSPubSub.lock_of_live live, Results.bind_ok,
        Results.pure_ok] at parsed
      obtain ⟨_, named, made⟩ := parsed
      obtain ⟨topic, found, rfl⟩ := backchannelName_ok.mp named
      exact ⟨topic, found, made.symm⟩

end IceflowProducer

namespace IceFlow

/-- What the loop over the downstream edges adds to a map and an instance. -/
structure ProducersBuilt (nodePrefix syncPrefix : String) (edges : List Edge)
    (producers : StringMap IceflowProducer) (svs : SVSPubSub)
    (producers' : StringMap IceflowProducer) (svs' : SVSPubSub) : Prop where
  unchanged : svs' = { svs with subscriptions := svs'.subscriptions }
  entries : ∀ entry ∈ svs'.subscriptions.entries,
    entry ∈ svs.subscriptions.entries ∨
      entry.2.receiver = .backchannel nodePrefix syncPrefix
  members : ∀ id, id ∈ producers' ↔ id ∈ producers ∨ ∃ edge ∈ edges, edge.id = id
  built : ∀ id producer, producers'.lookup id = some producer →
    producers.lookup id = some producer ∨ ∃ edge ∈ edges, edge.id = id ∧
      producer.identity =
        (syncPrefix ++ "/" ++ id, nodePrefix, syncPrefix, edge.maxPartitions, id)

theorem constructProducers_built {nodePrefix syncPrefix : String}
    {generator : String → Stream' UInt32} {edges : List Edge}
    {producers producers' : StringMap IceflowProducer} {svs svs' : SVSPubSub}
    (live : svs.expired = false)
    (constructed : constructProducers nodePrefix syncPrefix generator edges producers svs =
      .ok (producers', svs')) :
    ProducersBuilt nodePrefix syncPrefix edges producers svs producers' svs' := by
  induction edges generalizing producers svs with
  | nil =>
    cases constructed
    exact ⟨rfl, fun _ member => Or.inl member, by simp, fun _ _ found => Or.inl found⟩
  | cons edge rest ih =>
    simp only [constructProducers] at constructed
    split at constructed
    · contradiction
    · rename_i producer middle first
      have built := IceflowProducer.construct_built live first
      obtain ⟨topic, parsed, rfl⟩ := built.subscribed
      have still_live : (svs.subscribe (topic ++ [Platform.backchannel])
          (.backchannel nodePrefix syncPrefix)).1.expired = false := live
      have later := ih still_live constructed
      constructor
      case unchanged =>
        rw [later.unchanged]
        rfl
      case entries =>
        intro entry member
        rcases later.entries entry member with old | new
        · rcases List.mem_append.mp old with old | added
          · exact Or.inl old
          · exact Or.inr (by rw [List.mem_singleton.mp added])
        · exact Or.inr new
      case members =>
        intro id
        rw [later.members, StringMap.mem_emplace]
        simp only [List.mem_cons, exists_eq_or_imp]
        constructor
        · rintro ((rfl | old) | rest)
          · exact Or.inr (Or.inl rfl)
          · exact Or.inl old
          · exact Or.inr (Or.inr rest)
        · rintro (old | rfl | rest)
          · exact Or.inl (Or.inr old)
          · exact Or.inl (Or.inl rfl)
          · exact Or.inr rest
      case built =>
        intro id found present
        rcases later.built id found present with here | ⟨e, member, named, identity⟩
        · rcases StringMap.lookup_emplace here with old | ⟨rfl, rfl⟩
          · exact Or.inl old
          · exact Or.inr ⟨edge, List.mem_cons_self, rfl, built.identity⟩
        · exact Or.inr ⟨e, List.mem_cons_of_mem _ member, named, identity⟩

theorem mem_constructConsumers {syncPrefix : String} {now : String → Int} {edges : List Edge}
    {id : String} :
    id ∈ (constructConsumers syncPrefix now edges : StringMap (IceflowConsumer μ)) ↔
      ∃ edge ∈ edges, edge.id = id := by
  suffices loop : ∀ consumers : StringMap (IceflowConsumer μ),
      id ∈ edges.foldl (fun consumers upstreamEdge => consumers.emplace upstreamEdge.id
        (IceflowConsumer.construct syncPrefix upstreamEdge.id (now upstreamEdge.id))) consumers ↔
      id ∈ consumers ∨ ∃ edge ∈ edges, edge.id = id by
    simpa [constructConsumers] using loop ∅
  induction edges with
  | nil => simp
  | cons edge rest ih =>
    intro consumers
    rw [List.foldl_cons, ih, StringMap.mem_emplace]
    simp only [List.mem_cons, exists_eq_or_imp]
    constructor
    · rintro ((rfl | old) | later)
      · exact Or.inr (Or.inl rfl)
      · exact Or.inl old
      · exact Or.inr (Or.inr later)
    · rintro (old | rfl | later)
      · exact Or.inl (Or.inr old)
      · exact Or.inl (Or.inl rfl)
      · exact Or.inr later

theorem constructConsumers_lookup {syncPrefix : String} {now : String → Int} {edges : List Edge}
    {id : String} {consumer : IceflowConsumer μ}
    (found : (constructConsumers syncPrefix now edges).lookup id = some consumer) :
    consumer = IceflowConsumer.construct syncPrefix id (now id) := by
  suffices loop : ∀ consumers : StringMap (IceflowConsumer μ),
      (∀ id consumer, consumers.lookup id = some consumer →
        consumer = IceflowConsumer.construct syncPrefix id (now id)) →
      (edges.foldl (fun consumers upstreamEdge => consumers.emplace upstreamEdge.id
        (IceflowConsumer.construct syncPrefix upstreamEdge.id (now upstreamEdge.id)))
          consumers).lookup id = some consumer →
      consumer = IceflowConsumer.construct syncPrefix id (now id) by
    exact loop ∅ (by simp) found
  clear found
  induction edges with
  | nil => exact fun consumers initial found => initial id consumer found
  | cons edge rest ih =>
    intro consumers initial
    apply ih
    intro id consumer found
    rcases StringMap.lookup_emplace found with old | ⟨rfl, rfl⟩
    · exact initial id consumer old
    · rfl

/-- What a successful construction makes of its arguments. -/
structure Fresh (dagParser : DAGParser) (nodeName : String) (now : String → Int) (n : IceFlow μ) :
    Prop where
  node : dagParser.findNodeByName nodeName = .ok n.node
  syncPrefix : n.syncPrefix = dagParser.applicationName
  nodePrefix_parses : Platform.nameOfUri n.nodePrefix = some n.svsPubSub.nodePrefix
  syncPrefix_parses : Platform.nameOfUri n.syncPrefix = some n.svsPubSub.syncPrefix
  producers : ProducersBuilt n.nodePrefix n.syncPrefix n.node.downstream ∅
    { n.svsPubSub with subscriptions := .empty } n.iceflowProducers n.svsPubSub
  consumers : n.iceflowConsumers = constructConsumers n.syncPrefix now
    ((dagParser.findUpstreamEdges n.node.task).map Prod.snd)
  live : n.svsPubSub.expired = false
  publications : n.svsPubSub.publications = []
  dataStore : n.svsPubSub.dataStore = []
  history : n.history = []

theorem construct_fresh {dagParser : DAGParser} {nodeName : String} {environment : Environment μ}
    {n : IceFlow μ} (constructed : construct dagParser nodeName environment = .ok n) :
    Fresh dagParser nodeName environment.now n := by
  simp only [construct, Results.bind_ok, Results.pure_ok] at constructed
  obtain ⟨node, found, syncName, sync, nodeName', node_parses, ⟨producers, svs⟩, loop, rfl⟩ :=
    constructed
  have built := constructProducers_built rfl loop
  have unchanged : svs = { SVSPubSub.construct syncName nodeName' with
    subscriptions := svs.subscriptions } := built.unchanged
  rw [unchanged] at built ⊢
  exact ⟨found, rfl, name_ok_iff.mp node_parses, name_ok_iff.mp sync, built, rfl, rfl, rfl, rfl,
    rfl⟩

theorem Fresh.handles {dagParser : DAGParser} {nodeName : String} {now : String → Int}
    {n : IceFlow μ} (fresh : Fresh dagParser nodeName now n) (edge : String) :
    n.handles edge = [] := by
  unfold IceFlow.handles
  cases found : n.iceflowConsumers.lookup edge with
  | none => rfl
  | some consumer =>
    rw [fresh.consumers] at found
    rw [constructConsumers_lookup found]
    rfl

theorem Fresh.backchannels {dagParser : DAGParser} {nodeName : String} {now : String → Int}
    {n : IceFlow μ} (fresh : Fresh dagParser nodeName now n) :
    ∀ entry ∈ n.svsPubSub.subscriptions.entries,
      entry.2.receiver = .backchannel n.nodePrefix n.syncPrefix := by
  intro entry member
  rcases fresh.producers.entries entry member with old | new
  · simp at old
  · exact new

theorem Fresh.wellFormed {dagParser : DAGParser} {nodeName : String} {now : String → Int}
    {n : IceFlow μ} (fresh : Fresh dagParser nodeName now n) : WellFormed n := by
  have handles := fresh.handles
  have backchannels := fresh.backchannels
  constructor
  case live => exact fresh.live
  case nodePrefix_parses => exact fresh.nodePrefix_parses
  case syncPrefix_parses => exact fresh.syncPrefix_parses
  case consumer_fixed =>
    intro edge consumer found
    rw [fresh.consumers] at found
    rw [constructConsumers_lookup found]
    exact ⟨rfl, rfl⟩
  case producer_fixed =>
    intro edge producer found
    rcases fresh.producers.built edge producer found with old | ⟨_, _, _, identity⟩
    · simp at old
    · simp only [IceflowProducer.identity, Prod.mk.injEq] at identity
      exact ⟨identity.1, identity.2.1, identity.2.2.2.2⟩
  case captured =>
    intro entry member nodePrefix syncPrefix received
    rw [backchannels entry member] at received
    simp only [Receiver.backchannel.injEq] at received
    exact ⟨received.1.symm, received.2.symm⟩
  case held =>
    intro entry member edge received
    rw [backchannels entry member] at received
    contradiction
  case owner =>
    intro entry member edge held
    simp [handles] at held
  case handles_issued =>
    intro edge h held
    simp [handles] at held
  case partition_topic =>
    intro entry member edge received
    rw [backchannels entry member] at received
    contradiction

end IceFlow
end Iceflow
