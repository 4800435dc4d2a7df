import Iceflow.Foundation.Tiling
import Iceflow.Node.Invocations
import Iceflow.Node.Items
import Iceflow.Node.Serving
import Iceflow.WordCount

/-! Routing of the items of a producer to the consumers of its edge on other nodes.
The producer's node and the consumers' nodes are states reached by any operations
but statistics queries of consumers; then every publication of the producer's node
is handed once to each matching subscription, in any order. -/
namespace Iceflow
open Tiling

section
variable [Platform] {μ : Type}

/-- One hand-over of the publication at an index of the producer's log. -/
structure Delivery (ι : Type) where
  node : ι
  handle : Handle
  index : Nat
  now : Int

def Delivery.key {ι : Type} (delivery : Delivery ι) : ι × Handle × Nat :=
  (delivery.node, delivery.handle, delivery.index)

variable {ι : Type}

/-- The pub/sub hands each publication of the log once to each matching subscription. -/
structure DeliversOnce (log : SVSPubSub) (nodes : ι → IceFlow μ) (schedule : List (Delivery ι)) :
    Prop where
  once : (schedule.map Delivery.key).Nodup
  all : ∀ i handle index, (i, handle, index) ∈ schedule.map Delivery.key ↔
    ∃ item subscription, log.subscriptionData index = some item ∧
      (handle, subscription) ∈ (nodes i).svsPubSub.subscriptions.entries ∧
      subscription.topic <+: item.name

def hitBy (edge : String) (log : SVSPubSub) (nodes : ι → IceFlow μ) (delivery : Delivery ι) :
    Option (Nat × ι × SubscriptionData) :=
  match log.subscriptionData delivery.index with
  | some item =>
    if (nodes delivery.node).hits edge delivery.handle item then
      some (delivery.index, delivery.node, item)
    else none
  | none => none

theorem hitBy_index {edge : String} {log : SVSPubSub} {nodes : ι → IceFlow μ}
    {delivery : Delivery ι} {t : Nat} {item : SubscriptionData}
    (published : log.subscriptionData t = some item)
    (found : ((hitBy edge log nodes delivery).filter (fun x => x.1 = t)).isSome) :
    delivery.index = t ∧ (nodes delivery.node).hits edge delivery.handle item = true := by
  obtain ⟨x, kept⟩ := Option.isSome_iff_exists.mp found
  obtain ⟨hit, index⟩ := Option.filter_eq_some_iff.mp kept
  unfold hitBy at hit
  split at hit
  · rename_i other there
    split at hit
    · rename_i holds
      cases hit
      obtain rfl : delivery.index = t := by simpa using index
      obtain rfl := Option.some.inj (there.symm.trans published)
      exact ⟨rfl, holds⟩
    · contradiction
  · contradiction

variable [DecidableEq ι]

def receive (log : SVSPubSub) (nodes : ι → IceFlow μ) (delivery : Delivery ι) : ι → IceFlow μ :=
  match log.subscriptionData delivery.index with
  | some item => Function.update nodes delivery.node
    ((nodes delivery.node).deliver delivery.handle item delivery.now).2
  | none => nodes

/-- The calls of the callback for an edge that one hand-over adds to the history of
its node, with the index that was handed over. -/
def invokedBy (edge : String) (log : SVSPubSub) (nodes : ι → IceFlow μ) (delivery : Delivery ι) :
    List (Nat × ι × SubscriptionData) :=
  let before := (nodes delivery.node).history
  let after := (receive log nodes delivery delivery.node).history
  ((after.drop before.length).filterMap (IceFlow.invokedItem edge)).map
    (fun item => (delivery.index, delivery.node, item))

def invocations (edge : String) (log : SVSPubSub) (nodes : ι → IceFlow μ)
    (schedule : List (Delivery ι)) : List (Nat × ι × SubscriptionData) :=
  (Transition.steps (receive log) nodes schedule).flatMap (fun x => invokedBy edge log x.1 x.2)

theorem invokedBy_eq {edge : String} {log : SVSPubSub} {nodes : ι → IceFlow μ}
    (ready : ∀ i, (nodes i).Ready edge) (delivery : Delivery ι) :
    invokedBy edge log nodes delivery = (hitBy edge log nodes delivery).toList := by
  unfold invokedBy receive hitBy
  cases log.subscriptionData delivery.index with
  | none => simp
  | some item =>
    obtain ⟨events, history, invoked⟩ :=
      (ready delivery.node).invokes delivery.handle item delivery.now
    simp only [Function.update_self, history, List.drop_left, invoked]
    split <;> rfl

theorem receive_frame {edge : String} {log : SVSPubSub} {nodes : ι → IceFlow μ}
    (ready : ∀ i, (nodes i).Ready edge) (delivery : Delivery ι) (i : ι) :
    (receive log nodes delivery i).Ready edge ∧
      IceFlow.Frame (nodes i) (receive log nodes delivery i) := by
  unfold receive
  cases log.subscriptionData delivery.index with
  | none => exact ⟨ready i, .refl _⟩
  | some item =>
    by_cases here : i = delivery.node
    · subst here
      simp only [Function.update_self]
      exact ⟨(ready _).deliver _ _ _, (nodes _).frame_deliver _ _ _⟩
    · simp only [Function.update_of_ne here]
      exact ⟨ready i, .refl _⟩

theorem invocations_eq {edge : String} {log : SVSPubSub} {nodes : ι → IceFlow μ}
    (ready : ∀ i, (nodes i).Ready edge) (schedule : List (Delivery ι)) :
    invocations edge log nodes schedule = schedule.filterMap (hitBy edge log nodes) := by
  induction schedule generalizing nodes with
  | nil => rfl
  | cons delivery rest ih =>
    have after (i : ι) : (receive log nodes delivery i).Ready edge ∧
        IceFlow.Frame (nodes i) (receive log nodes delivery i) := receive_frame ready delivery i
    have same : hitBy edge log (receive log nodes delivery) = hitBy edge log nodes := by
      funext other
      unfold hitBy
      cases log.subscriptionData other.index with
      | none => rfl
      | some item => simp only [(after other.node).2.hits]
    have tail := ih (fun i => (after i).1)
    rw [invocations, same] at tail
    rw [invocations, Transition.steps, List.flatMap_cons, tail, invokedBy_eq ready,
      List.filterMap_cons]
    cases hitBy edge log nodes delivery <;> rfl

theorem subscriptionFor_injective (topic : Name) (edge : String) :
    Function.Injective (IceflowConsumer.subscriptionFor topic edge) := by
  intro p q same
  have topics : topic ++ [Platform.fromNumber q.toUInt64] =
      (IceflowConsumer.subscriptionFor topic edge p).topic :=
    (congrArg Subscription.topic same).symm
  exact IceflowConsumer.subscriptionFor_topic_inj.mp topics

theorem IceFlow.Serving.of_hits {n : IceFlow μ} {edge : String} {partitions : List UInt32}
    (serving : n.Serving edge partitions) {topic : Name}
    (parsed : Platform.nameOfUri (n.topicOf edge) = some topic) {p : UInt32}
    {item : SubscriptionData} (named : item.name = topic ++ [Platform.fromNumber p.toUInt64])
    {handle : Handle} (hit : n.hits edge handle item = true) :
    p ∈ partitions ∧
      (handle, IceflowConsumer.subscriptionFor topic edge p) ∈ n.subscriptionsOf edge := by
  rw [hits] at hit
  split at hit
  · rename_i subscription found
    obtain ⟨receiver, matched⟩ := of_decide_eq_true hit
    have member : (handle, subscription) ∈ n.subscriptionsOf edge :=
      List.mem_filter.mpr ⟨Registration.Registry.mem_of_find? found, by simpa using receiver⟩
    have inside := member
    obtain ⟨added, entries, _⟩ := serving
    rw [entries] at inside
    obtain ⟨_, t, q, parsed', listed, rfl⟩ :=
      IceFlow.receiver_of_requested (List.of_mem_zip inside).2
    obtain rfl := Option.some.inj (parsed'.symm.trans parsed)
    rw [named] at matched
    have same := matched.eq_of_length (by simp [IceflowConsumer.subscriptionFor])
    obtain rfl := IceflowConsumer.subscriptionFor_topic_inj.mp same.symm
    exact ⟨listed, member⟩
  · contradiction

theorem IceFlow.Serving.hits_of_mem {n : IceFlow μ} {edge : String} {topic : Name} {p : UInt32}
    {item : SubscriptionData} (named : item.name = topic ++ [Platform.fromNumber p.toUInt64])
    {handle : Handle}
    (member : (handle, IceflowConsumer.subscriptionFor topic edge p) ∈ n.subscriptionsOf edge) :
    n.hits edge handle item = true := by
  have found := Registration.Registry.find?_of_mem (List.mem_of_mem_filter member)
  rw [hits, found]
  simp [named, IceflowConsumer.subscriptionFor]

/-- The hand-overs of an item of a partition reach the callbacks for its edge once, at
the owner of the partition. -/
theorem routed_once {edge : String} {log : SVSPubSub} {nodes : ι → IceFlow μ}
    {schedule : List (Delivery ι)} (delivers : DeliversOnce log nodes schedule)
    (ready : ∀ i, (nodes i).Ready edge) {lists : ι → List UInt32}
    (serving : ∀ i, (nodes i).Serving edge (lists i)) {required : UInt32 → Prop}
    (tiles : Tiles required lists) {topic : Name}
    (parsed : ∀ i, Platform.nameOfUri ((nodes i).topicOf edge) = some topic) {p : UInt32}
    (wanted : required p) {t : Nat} {item : SubscriptionData}
    (published : log.subscriptionData t = some item)
    (named : item.name = topic ++ [Platform.fromNumber p.toUInt64]) :
    ∃ i, p ∈ lists i ∧ (∀ j, p ∈ lists j → j = i) ∧
      (invocations edge log nodes schedule).filter (fun x => x.1 = t) = [(t, i, item)] := by
  obtain ⟨i, owned, only⟩ := tiles.exists_owner wanted
  refine ⟨i, owned, only, ?_⟩
  -- The owner's subscription for the partition, and the hand-over to it.
  obtain ⟨added, entries, length⟩ := serving i
  have requested : (nodes i).requested edge (lists i) =
      (lists i).map (IceflowConsumer.subscriptionFor topic edge) := by
    simp [IceFlow.requested, parsed]
  rw [requested] at entries
  rw [requested, List.length_map] at length
  obtain ⟨handle, paired⟩ := zip_exists (IceflowConsumer.subscriptionFor topic edge) length owned
  rw [← entries] at paired
  have hit := IceFlow.Serving.hits_of_mem named paired
  have scheduled : (i, handle, t) ∈ schedule.map Delivery.key := by
    rw [delivers.all]
    exact ⟨item, _, published, List.mem_of_mem_filter paired,
      by rw [named, IceflowConsumer.subscriptionFor]⟩
  obtain ⟨delivery, member, key⟩ := List.mem_map.mp scheduled
  simp only [Delivery.key, Prod.mk.injEq] at key
  obtain ⟨rfl, rfl, rfl⟩ := key
  rw [invocations_eq ready, List.filter_filterMap]
  apply filterMap_eq_singleton (List.Nodup.of_map _ delivers.once) member
  · simp [hitBy, published, hit, Option.filter]
  · intro other inside found
    obtain ⟨index, there⟩ := hitBy_index published found
    obtain ⟨held, other_paired⟩ := (serving other.node).of_hits (parsed other.node) named there
    have node := only other.node held
    rw [node, entries] at other_paired
    rw [entries] at paired
    have same_handle := zip_unique (subscriptionFor_injective topic edge) (tiles.nodup _) length
      other_paired paired
    apply List.inj_on_of_nodup_map delivers.once inside member
    rw [Delivery.key, Delivery.key, node, same_handle, index]

/-- Every item that a producer was given by a call, whatever happened before, between
and after those calls, triggers one callback for its edge, with its bytes, at the one
consumer whose current list contains the partition that was drawn for it. -/
theorem exactly_once_routing {producerNode : IceFlow μ} (constructed : producerNode.Constructed)
    {edge : String} {producer : IceflowProducer}
    (found : producerNode.iceflowProducers.lookup edge = some producer)
    {producerOps : List (Op μ)} {start : ι → IceFlow μ} (consumers : ∀ i, (start i).Constructed)
    (application : ∀ i, (start i).syncPrefix = producerNode.syncPrefix) {ops : ι → List (Op μ)}
    (quiet : ∀ i, ∀ op ∈ ops i, op.queriesConsumers = false)
    (registered : ∀ i, ∃ consumer callback,
      ((start i).run (ops i)).iceflowConsumers.lookup edge = some consumer ∧
        consumer.consumerCallback = some callback)
    (tiles : Tiles (fun p => p < producer.numberOfPartitions)
      (fun i => lastPartitions edge (ops i)))
    {schedule : List (Delivery ι)}
    (delivers : DeliversOnce (producerNode.run producerOps).svsPubSub
      (fun i => (start i).run (ops i)) schedule) :
    ∀ first payload rest, producerOps = first ++ .call (.pushData edge payload) :: rest →
      ∃ p item i, (producerNode.run first).nextPartition edge = some p ∧ item.data = payload ∧
        p ∈ lastPartitions edge (ops i) ∧ (∀ j, p ∈ lastPartitions edge (ops j) → j = i) ∧
        (invocations edge (producerNode.run producerOps).svsPubSub
          (fun i => (start i).run (ops i)) schedule).filter
            (fun x => x.1 = (producerNode.run first).svsPubSub.publications.length) =
          [((producerNode.run first).svsPubSub.publications.length, i, item)] := by
  intro first payload rest split
  obtain ⟨p, item, drawn, below, published, named, data⟩ :=
    IceFlow.pushed_item constructed found split
  have ready (i : ι) : ((start i).run (ops i)).Ready edge :=
    ⟨(consumers i).run_wellFormed (ops i), registered i⟩
  have known (i : ι) : edge ∈ (start i).iceflowConsumers := by
    obtain ⟨consumer, _, held, _⟩ := registered i
    exact ((consumers i).mem_consumers_run (ops i) edge).mp (StringMap.mem_of_lookup held)
  have serving (i : ι) : ((start i).run (ops i)).Serving edge (lastPartitions edge (ops i)) :=
    (consumers i).serving (known i) (quiet i)
  have topics (i : ι) : ((start i).run (ops i)).topicOf edge = producerNode.topicOf edge := by
    rw [IceFlow.topicOf, ((consumers i).run_producers (ops i)).1, application, IceFlow.topicOf]
  obtain ⟨topic, parsed⟩ := producer.pubTopic_parses
  rw [(constructed.wellFormed.producer_fixed edge producer found).1] at parsed
  have name_eq : item.name = topic ++ [Platform.fromNumber p.toUInt64] :=
    Except.ok.inj (named.symm.trans (partitionName_parsed parsed p))
  obtain ⟨i, owned, only, once⟩ := routed_once delivers ready serving tiles
    (fun i => by rw [topics, parsed]) below published name_eq
  exact ⟨p, item, i, drawn, data, owned, only, once⟩

end

section
open scoped Iceflow.Reference
open IceFlow WordCount

/-- Two instances of lines2words that share the partitions of t2l. -/
def sharing (second : Bool) : List (Op Unit) :=
  [.call (.registerConsumerCallback "t2l" (fun memory _ => .done memory)),
    .call (.repartitionConsumer "t2l" (if second then [1] else [0, 2]))]

def sharingNode (second : Bool) : IceFlow Unit :=
  if second then secondSplitter else firstSplitter

def lineTopic : Name := Reference.components ["WordCount", "t2l"]

def onePush : List (Op Unit) := [.call (.pushData "t2l" [104, 105])]

def oneDelivery : List (Delivery Bool) := [⟨false, Reference.handle 2, 0, 0⟩]

theorem firstSource_producer : ∃ producer,
    firstSource.iceflowProducers.lookup "t2l" = some producer ∧ producer.numberOfPartitions = 3 :=
  ⟨_, rfl, rfl⟩

theorem sharing_registered (second : Bool) : ∃ consumer callback,
    ((sharingNode second).run (sharing second)).iceflowConsumers.lookup "t2l" = some consumer ∧
      consumer.consumerCallback = some callback := by
  cases second
  · exact ⟨_, _, rfl, rfl⟩
  · exact ⟨_, _, rfl, rfl⟩

theorem sharing_entries (second : Bool) :
    ((sharingNode second).run (sharing second)).svsPubSub.subscriptions.entries =
      (Reference.handle 1, ⟨Reference.components ["WordCount", "l2w", "backchannel"],
        .backchannel (if second then "/node-WordCount/4" else "/node-WordCount/3") "WordCount"⟩) ::
      if second then
        [(Reference.handle 2, IceflowConsumer.subscriptionFor lineTopic "t2l" 1)]
      else
        [(Reference.handle 2, IceflowConsumer.subscriptionFor lineTopic "t2l" 0),
          (Reference.handle 3, IceflowConsumer.subscriptionFor lineTopic "t2l" 2)] := by
  cases second <;> rfl

theorem sharing_tiles (k : UInt32) (few : k = 3) :
    Tiles (fun p => p < k) (fun second => lastPartitions "t2l" (sharing second)) := by
  subst few
  have lists (second : Bool) :
      lastPartitions "t2l" (sharing second) = if second then [1] else [0, 2] := by
    cases second <;> rfl
  simp only [lists]
  constructor
  · decide
  · rintro (_ | _) (_ | _) p <;> grind
  · intro p below
    have cases : p = 0 ∨ p = 1 ∨ p = 2 := by grind
    rcases cases with rfl | rfl | rfl
    · exact ⟨false, by decide⟩
    · exact ⟨true, by decide⟩
    · exact ⟨false, by decide⟩

theorem onePush_log : ∃ item,
    (∀ index, (firstSource.run onePush).svsPubSub.subscriptionData index =
      if index = 0 then some item else none) ∧
    item.name = lineTopic ++ [Platform.fromNumber (0 : UInt32).toUInt64] := by
  have log : ∃ publication, (firstSource.run onePush).svsPubSub.publications = [publication] ∧
      publication.name = lineTopic ++ [Platform.fromNumber (0 : UInt32).toUInt64] := ⟨_, rfl, rfl⟩
  obtain ⟨publication, log, named⟩ := log
  refine ⟨⟨publication.name, (firstSource.run onePush).svsPubSub.nodePrefix, 1,
    publication.data⟩, ?_, named⟩
  intro index
  cases index <;> simp [SVSPubSub.subscriptionData, log]

theorem oneDelivery_delivers : DeliversOnce (firstSource.run onePush).svsPubSub
    (fun second => (sharingNode second).run (sharing second)) oneDelivery := by
  obtain ⟨item, log, named⟩ := onePush_log
  constructor
  · simp [oneDelivery]
  · intro second handle index
    have matched (p : UInt32) : (IceflowConsumer.subscriptionFor lineTopic "t2l" p).topic <+:
        item.name ↔ p = 0 := by
      rw [named, IceflowConsumer.subscriptionFor, List.prefix_append_right_inj]
      rw [List.prefix_iff_eq_take, List.length_singleton, List.take_succ_cons, List.take_zero,
        List.singleton_inj, Platform.fromNumber_injective.eq_iff]
      exact UInt32.toUInt64_inj
    have unmatched : ¬ Reference.components ["WordCount", "l2w", "backchannel"] <+: item.name := by
      rw [named]
      decide
    simp only [log, sharing_entries]
    cases second
    · simp only [oneDelivery, List.map_cons, List.map_nil, Delivery.key, Prod.mk.injEq,
        true_and, Option.ite_none_right_eq_some, Option.some.injEq, Bool.false_eq_true,
        if_false, List.mem_cons, List.not_mem_nil, or_false]
      constructor
      · rintro ⟨rfl, rfl⟩
        exact ⟨item, _, ⟨rfl, rfl⟩, Or.inr (Or.inl ⟨rfl, rfl⟩), (matched 0).mpr rfl⟩
      · rintro ⟨_, _, ⟨rfl, rfl⟩, ⟨_, rfl⟩ | ⟨rfl, rfl⟩ | ⟨_, rfl⟩, prefixed⟩
        · exact absurd prefixed unmatched
        · exact ⟨rfl, rfl⟩
        · exact absurd ((matched 2).mp prefixed) (by decide)
    · simp only [oneDelivery, List.map_cons, List.map_nil, Delivery.key, Prod.mk.injEq,
        Bool.true_eq_false, false_and, false_iff, Option.ite_none_right_eq_some, Option.some.injEq,
        if_true, List.mem_cons, List.not_mem_nil, or_false]
      rintro ⟨_, _, ⟨_, rfl⟩, ⟨_, rfl⟩ | ⟨_, rfl⟩, prefixed⟩
      · exact unmatched prefixed
      · exact absurd ((matched 1).mp prefixed) (by decide)

theorem exactly_once_routing_sharing :
    ∃ p item i, firstSource.nextPartition "t2l" = some p ∧ item.data = [104, 105] ∧
      p ∈ lastPartitions "t2l" (sharing i) ∧
      (∀ j, p ∈ lastPartitions "t2l" (sharing j) → j = i) ∧
      (invocations "t2l" (firstSource.run onePush).svsPubSub
        (fun second => (sharingNode second).run (sharing second)) oneDelivery).filter
          (fun x => x.1 = firstSource.svsPubSub.publications.length) =
        [(firstSource.svsPubSub.publications.length, i, item)] := by
  obtain ⟨producer, found, three⟩ := firstSource_producer
  have consumers (second : Bool) : (sharingNode second).Constructed := by
    cases second
    · exact constructed_firstSplitter
    · exact constructed_secondSplitter
  have quiet : ∀ second, ∀ op ∈ sharing second, op.queriesConsumers = false := by
    intro second op member
    simp only [sharing, List.mem_cons, List.not_mem_nil, or_false] at member
    rcases member with rfl | rfl <;> rfl
  exact exactly_once_routing constructed_firstSource found consumers
    (by intro second; cases second <;> rfl) quiet sharing_registered
    (sharing_tiles _ three) oneDelivery_delivers [] [104, 105] [] rfl

end
end Iceflow
