import Iceflow.Foundation.Dispatch
import Iceflow.Foundation.Tiling
import Iceflow.Network.HandOvers
import Iceflow.Node.Log
import Iceflow.Topics

/-! Exactly-once delivery between whole nodes. If the pub/sub hands every publication once to
every subscription that matches, and the consumers of an edge share the partitions that its
producers draw from, then whatever the order of steps the callbacks of the edge are called
once with each item that any producer of the edge has pushed. -/
namespace Iceflow
open Tiling

section
variable [Platform] {μ : Type}

theorem IceFlow.Holding.topics {n : IceFlow μ} {edge : String} {partitions : List UInt32}
    (holding : n.Holding edge partitions) {topic : Name}
    (parsed : Platform.nameOfUri (n.topicOf edge) = some topic) :
    (n.subscriptionsOf edge).map (fun entry => entry.2.topic) =
      partitions.map (fun p => topic ++ [Platform.fromNumber p.toUInt64]) := by
  obtain ⟨_, named⟩ := holding
  generalize n.subscriptionsOf edge = entries at named ⊢
  induction named with
  | nil => rfl
  | cons first _ ih =>
    rw [partitionName_parsed parsed] at first
    rw [List.map_cons, List.map_cons, ih, Except.ok.inj first]

theorem partitionTopic_injective (topic : Name) :
    Function.Injective (fun p : UInt32 => topic ++ [Platform.fromNumber p.toUInt64]) := by
  intro p q same
  have topics : topic ++ [Platform.fromNumber p.toUInt64] =
      (IceflowConsumer.subscriptionFor topic "" q).topic := same
  exact (IceflowConsumer.subscriptionFor_topic_inj.mp topics).symm

namespace IceFlow

theorem lastPartitions_called (edge : String) (ops : List (Op μ)) :
    lastPartitions edge ops = lastPartitions edge ((ops.filterMap Op.called).map Op.call) := by
  rw [lastPartitions, lastPartitions]
  generalize ([] : List UInt32) = last
  induction ops generalizing last with
  | nil => rfl
  | cons op rest ih =>
    cases op with
    | call c => exact ih _
    | deliver handle item now => exact ih _

theorem lastPartitions_of_none {edge : String} {ops : List (Op μ)}
    (none : ∀ op ∈ ops, op.repartitionsConsumer edge = false) : lastPartitions edge ops = [] := by
  induction ops using List.reverseRecOn with
  | nil => rfl
  | append_singleton ops op ih =>
    rw [lastPartitions, List.foldl_append, ← lastPartitions,
      ih (fun op member => none op (List.mem_append_left _ member))]
    have last := none op (by simp)
    cases op with
    | deliver handle item now => rfl
    | call c =>
      cases c with
      | repartitionConsumer e partitions => exact if_neg (of_decide_eq_false last)
      | _ => rfl

/-- At a node with a consumer for an edge that has a name, every repartition succeeds. -/
theorem Constructed.lastSuccessful_known {n₀ : IceFlow μ} (constructed : n₀.Constructed)
    {edge : String} (known : edge ∈ n₀.iceflowConsumers)
    (parsed : (Platform.nameOfUri (n₀.topicOf edge)).isSome) (ops : List (Op μ)) :
    n₀.lastSuccessful edge ops = lastPartitions edge ops := by
  induction ops using List.reverseRecOn with
  | nil => rfl
  | append_singleton ops op ih =>
    rw [lastSuccessful_concat, lastPartitions, List.foldl_append, ← lastPartitions, ← ih]
    have kept : edge ∈ (n₀.run ops).iceflowConsumers :=
      (constructed.mem_consumers_run ops edge).mpr known
    obtain ⟨consumer, found⟩ := StringMap.mem_iff_lookup.mp kept
    cases op with
    | deliver handle item now => rfl
    | call c =>
      cases c with
      | repartitionConsumer e partitions =>
        by_cases here : e = edge
        · subst here
          rw [repartitions_known (constructed.run_wellFormed ops) found, if_pos]
          · simp [nextPartitions]
          · rw [IceFlow.topicOf, (constructed.run_producers ops).1]
            exact ⟨rfl, Or.inr parsed⟩
        · have none : (n₀.run ops).repartitions edge (.call (.repartitionConsumer e partitions)) =
              none := by
            simp only [repartitions]
            split
            · rw [if_neg (fun both => here both.1)]
            · rfl
          rw [none]
          simp [nextPartitions, here]
      | _ => rfl

/-- At a node without a consumer for an edge, none does. -/
theorem Constructed.lastSuccessful_unknown {n₀ : IceFlow μ} (constructed : n₀.Constructed)
    {edge : String} (unknown : edge ∉ n₀.iceflowConsumers) (ops : List (Op μ)) :
    n₀.lastSuccessful edge ops = [] := by
  induction ops using List.reverseRecOn with
  | nil => rfl
  | append_singleton ops op ih =>
    have absent : (n₀.run ops).iceflowConsumers.lookup edge = none :=
      AList.lookup_eq_none.mpr (fun kept =>
        unknown ((constructed.mem_consumers_run ops edge).mp kept))
    have none : (n₀.run ops).repartitions edge op = none := by
      unfold repartitions
      split
      · rename_i e partitions
        split
        · rename_i consumer found
          rw [if_neg]
          rintro ⟨rfl, _⟩
          rw [absent] at found
          cases found
        · rfl
      · rfl
    rw [lastSuccessful_concat, none, ih]
    rfl

end IceFlow

namespace Network
open IceFlow
variable {ι : Type}

/-- Where a publication is kept: its node, and its index in the log. -/
def HandOver.key (h : HandOver ι) : ι × Nat := (h.sender, h.index)

def dataOf (nodes : ι → IceFlow μ) (key : ι × Nat) : Option SubscriptionData :=
  (nodes key.1).svsPubSub.subscriptionData key.2

/-- The publications that were pushed to an edge at the nodes of a list. -/
def pushedKeys (edge : String) (nodes : ι → IceFlow μ) (all : List ι) : List (ι × Nat) :=
  all.flatMap (fun j => ((nodes j).svsPubSub.publications.zipIdx.filter
    (fun published => published.1.source = .pushed edge)).map (fun published => (j, published.2)))

theorem mem_pushedKeys {edge : String} {nodes : ι → IceFlow μ} {all : List ι}
    (complete : ∀ i, i ∈ all) {key : ι × Nat} :
    key ∈ pushedKeys edge nodes all ↔ ∃ publication,
      (nodes key.1).svsPubSub.publications[key.2]? = some publication ∧
        publication.source = .pushed edge := by
  obtain ⟨j, index⟩ := key
  simp only [pushedKeys, List.mem_flatMap, List.mem_map, List.mem_filter, decide_eq_true_eq,
    Prod.exists, Prod.mk.injEq]
  constructor
  · rintro ⟨j, _, publication, index, ⟨member, source⟩, rfl, rfl⟩
    exact ⟨publication, List.mem_zipIdx_iff_getElem?.mp member, source⟩
  · rintro ⟨publication, found, source⟩
    exact ⟨j, complete j, publication, index, ⟨List.mem_zipIdx_iff_getElem?.mpr found, source⟩,
      rfl, rfl⟩

theorem nodup_pushedKeys (edge : String) (nodes : ι → IceFlow μ) {all : List ι}
    (nodup : all.Nodup) : (pushedKeys edge nodes all).Nodup := by
  rw [pushedKeys, List.nodup_flatMap]
  constructor
  · intro j _
    have indices := List.nodup_zipIdx_map_snd (nodes j).svsPubSub.publications
    have filtered := indices.sublist ((List.filter_sublist (p := fun published =>
      decide (published.1.source = .pushed edge))).map Prod.snd)
    have keys := filtered.map (Prod.mk_right_injective j)
    rwa [List.map_map] at keys
  · apply nodup.imp
    intro i j different key first second
    obtain ⟨_, _, rfl⟩ := List.mem_map.mp first
    obtain ⟨_, _, same⟩ := List.mem_map.mp second
    exact different (congrArg Prod.fst same).symm

theorem pushedItems_eq (edge : String) (nodes : ι → IceFlow μ) (all : List ι) :
    all.flatMap (fun j => (nodes j).pushedItems edge) =
      (pushedKeys edge nodes all).filterMap (dataOf nodes) := by
  rw [pushedKeys, List.filterMap_flatMap]
  congr 1
  funext j
  rw [List.filterMap_map, List.filterMap_filter, pushedItems]
  apply List.filterMap_congr
  rintro ⟨publication, index⟩ _
  simp [dataOf]

variable [DecidableEq ι]

/-- Every publication is handed once to every subscription of another node that is live in
the end and matches. -/
structure ExactlyOnce (start : ι → IceFlow μ) (actions : List (Action ι μ)) : Prop where
  once : (handOvers start actions).Nodup
  all : ∀ receiver handle sender index, receiver ≠ sender → ∀ item subscription,
    (run start actions sender).svsPubSub.subscriptionData index = some item →
    (handle, subscription) ∈ (run start actions receiver).svsPubSub.subscriptions.entries →
    subscription.topic <+: item.name →
      ⟨receiver, handle, sender, index⟩ ∈ handOvers start actions

theorem Follows.exactlyOnce {start : ι → IceFlow μ} {actions : List (Action ι μ)}
    {ops : ι → List (Op μ)} {handed : List (HandOver ι)}
    (follows : Follows start actions ops handed) (all : List ι) (complete : ∀ i, i ∈ all)
    (once : handed.Nodup)
    (checked : ∀ receiver ∈ all, ∀ sender ∈ all, receiver ≠ sender →
      ∀ entry ∈ ((start receiver).run (ops receiver)).svsPubSub.subscriptions.entries,
      ∀ published ∈ ((start sender).run (ops sender)).svsPubSub.publications.zipIdx,
        entry.2.topic <+: published.1.name → ⟨receiver, entry.1, sender, published.2⟩ ∈ handed) :
    ExactlyOnce start actions := by
  refine ⟨follows.handed ▸ once, ?_⟩
  intro receiver handle sender index different item subscription found live matched
  rw [follows.handed]
  rw [follows.node] at found live
  obtain ⟨publication, published, rfl⟩ := Option.map_eq_some_iff.mp found
  exact checked receiver (complete _) sender (complete _) different _ live (publication, index)
    (List.mem_zipIdx_iff_getElem?.mpr published) matched

/-- The partitions that the consumer of an edge was last repartitioned to. -/
def partitionsOf (edge : String) (start : ι → IceFlow μ) (actions : List (Action ι μ)) (i : ι) :
    List UInt32 := (start i).lastSuccessful edge (operationsOf start actions i)

theorem quiet_of_settled {edge : String} {start : ι → IceFlow μ} {actions : List (Action ι μ)}
    (settled : ∀ x ∈ Transition.steps step start actions, Settled edge x.1 x.2) (i : ι) :
    ∀ op ∈ operationsOf start actions i, op.queriesConsumers = false := by
  intro op member
  obtain ⟨⟨nodes, action⟩, taken, operated⟩ := List.mem_filterMap.mp member
  have settled := settled _ taken
  cases action with
  | call j c =>
    simp only [operation, Option.bind_some] at operated
    split at operated
    · cases operated
      cases c with
      | getConsumerStats now => exact absurd settled id
      | _ => rfl
    · contradiction
  | deliver receiver handle sender index now =>
    simp only [operation] at operated
    split at operated
    · contradiction
    · obtain ⟨target, made, chosen⟩ := Option.bind_eq_some_iff.mp operated
      obtain ⟨item, _, rfl⟩ := Option.map_eq_some_iff.mp made
      split at chosen <;> cases chosen
      rfl

/-- Nodes of one application that exchange the items of an edge. -/
structure Exchange (edge : String) (start : ι → IceFlow μ) (actions : List (Action ι μ)) :
    Prop where
  constructed : ∀ i, (start i).Constructed
  application : ∀ i j, (start i).syncPrefix = (start j).syncPrefix
  settled : ∀ x ∈ Transition.steps step start actions, Settled edge x.1 x.2
  /-- No node feeds itself. -/
  apart : ∀ i, edge ∈ (start i).iceflowConsumers → edge ∉ (start i).iceflowProducers
  separated : ∀ i e, e ≠ edge → e ∈ (start i).iceflowProducers ∨ e ∈ (start i).iceflowConsumers →
    Separated (start i).syncPrefix edge e
  tiles : Tiles (fun p => ∃ j producer, (start j).iceflowProducers.lookup edge = some producer ∧
    p < producer.numberOfPartitions) (partitionsOf edge start actions)

/-- What is handed to the consumers of an edge, by where it is kept. -/
def receivedKeys (edge : String) (start : ι → IceFlow μ) (actions : List (Action ι μ)) :
    List (ι × Nat) :=
  ((handOvers start actions).filter
    (fun h => goesTo edge (run start actions h.receiver) h.handle)).map HandOver.key

namespace Exchange
variable {edge : String} {start : ι → IceFlow μ} {actions : List (Action ι μ)}

theorem holding (exchange : Exchange edge start actions) (i : ι) :
    (run start actions i).Holding edge (partitionsOf edge start actions i) := by
  rw [run_node]
  exact (exchange.constructed i).holding (quiet_of_settled exchange.settled i) edge

theorem wellFormed (exchange : Exchange edge start actions) (i : ι) :
    WellFormed (run start actions i) := by
  rw [run_node]
  exact (exchange.constructed i).run_wellFormed _

theorem topicOf (exchange : Exchange edge start actions) (i j : ι) (e : String) :
    (run start actions i).topicOf e = (start j).syncPrefix ++ "/" ++ e := by
  rw [run_node, IceFlow.topicOf, ((exchange.constructed i).run_producers _).1,
    exchange.application i j]

theorem mem_consumers (exchange : Exchange edge start actions) (i : ι) (e : String) :
    e ∈ (run start actions i).iceflowConsumers ↔ e ∈ (start i).iceflowConsumers := by
  rw [run_node]
  exact (exchange.constructed i).mem_consumers_run _ e

theorem filed (exchange : Exchange edge start actions) {j : ι} {publication : Publication}
    (published : publication ∈ (run start actions j).svsPubSub.publications) :
    match publication.source with
    | .pushed e => ∃ producer p, (start j).iceflowProducers.lookup e = some producer ∧
        p < producer.numberOfPartitions ∧
        partitionName ((start j).syncPrefix ++ "/" ++ e) p = .ok publication.name
    | .acknowledged e _ => e ∈ (start j).iceflowConsumers ∧
        backchannelName ((start j).syncPrefix ++ "/" ++ e) = .ok publication.name := by
  have filed : (run start actions j).Filed publication := by
    rw [run_node] at published ⊢
    exact (exchange.constructed j).run_logged _ publication published
  unfold Filed at filed
  cases source : publication.source with
  | pushed e =>
    rw [source] at filed
    obtain ⟨producer, p, found, below, named⟩ := filed
    have kept := ((exchange.constructed j).run_producers (operationsOf start actions j)).2 e
    rw [← run_node] at kept
    obtain ⟨old, found', same⟩ := StringMap.exists_of_map_eq kept found
    have number : producer.numberOfPartitions = old.numberOfPartitions :=
      congrArg (fun identity => identity.2.2.2.1) same
    exact ⟨old, p, found', by rwa [← number], by rwa [exchange.topicOf j j] at named⟩
  | acknowledged e item =>
    simp only [source, exchange.topicOf j j] at filed
    exact ⟨(exchange.mem_consumers j _).mp filed.1, filed.2⟩

theorem accounted (exchange : Exchange edge start actions) :
    Accounted edge (run start actions) (handOvers start actions) :=
  run_accounted exchange.constructed exchange.settled

theorem subscribed (exchange : Exchange edge start actions) {i : ι} {topic : Name}
    (parsed : Platform.nameOfUri ((start i).syncPrefix ++ "/" ++ edge) = some topic)
    {entry : Handle × Subscription} (live : entry ∈ (run start actions i).subscriptionsOf edge) :
    ∃ p ∈ partitionsOf edge start actions i,
      entry.2.topic = topic ++ [Platform.fromNumber p.toUInt64] := by
  rw [← exchange.topicOf i i] at parsed
  have listed := List.mem_map_of_mem (f := fun entry => Subscription.topic (Prod.snd entry)) live
  rw [(exchange.holding i).topics parsed] at listed
  obtain ⟨p, member, same⟩ := List.mem_map.mp listed
  exact ⟨p, member, same.symm⟩

theorem pushed_of_matched (exchange : Exchange edge start actions) {i j : ι}
    {subscription : Subscription} {handle : Handle}
    (live : (handle, subscription) ∈ (run start actions i).subscriptionsOf edge)
    {publication : Publication}
    (published : publication ∈ (run start actions j).svsPubSub.publications)
    (matched : subscription.topic <+: publication.name) :
    publication.source = .pushed edge ∧ subscription.topic = publication.name := by
  obtain ⟨live', received⟩ := List.mem_filter.mp live
  obtain ⟨topic, p, parsed, made⟩ := (exchange.wellFormed i).partition_topic _ live' edge
    (by simpa using received)
  rw [exchange.topicOf i j] at parsed
  have named : subscription.topic = topic ++ [Platform.fromNumber p.toUInt64] :=
    congrArg Subscription.topic made
  have subscribed : (Channel.partition p).name ((start j).syncPrefix ++ "/" ++ edge) =
      .ok subscription.topic := by rw [Channel.name_parsed parsed, named]; rfl
  have filed := exchange.filed published
  cases source : publication.source with
  | pushed e =>
    simp only [source] at filed
    obtain ⟨producer, q, found, _, name⟩ := filed
    by_cases here : e = edge
    · subst here
      rw [partitionName_parsed parsed] at name
      have whole := Except.ok.inj name
      refine ⟨rfl, matched.eq_of_length ?_⟩
      rw [named, ← whole]
      simp
    · exact absurd matched (exchange.separated j e here (Or.inl (StringMap.mem_of_lookup found))
        (.partition p) (.partition q) _ _ subscribed name)
  | acknowledged e item =>
    simp only [source] at filed
    obtain ⟨known, name⟩ := filed
    by_cases here : e = edge
    · subst here
      rw [backchannelName_parsed parsed] at name
      rw [named, ← Except.ok.inj name, append_singleton_prefix_iff] at matched
      rcases matched with ⟨_, same⟩ | longer
      · exact absurd same.symm (backchannel_ne_fromNumber _)
      · have length := longer.length_le
        simp at length
    · exact absurd matched (exchange.separated j e here (Or.inr known)
        (.partition p) .backchannel _ _ subscribed name)

theorem handed (exchange : Exchange edge start actions) {h : HandOver ι}
    (member : h ∈ (handOvers start actions).filter
      (fun h => goesTo edge (run start actions h.receiver) h.handle)) :
    ∃ publication subscription,
      (run start actions h.sender).svsPubSub.publications[h.index]? = some publication ∧
        (h.handle, subscription) ∈ (run start actions h.receiver).subscriptionsOf edge ∧
        publication.source = .pushed edge ∧ subscription.topic = publication.name := by
  obtain ⟨listed, goes⟩ := List.mem_filter.mp member
  obtain ⟨subscription, live⟩ := goesTo_iff.mp goes
  obtain ⟨_, item, found, matched⟩ := exchange.accounted.matched h listed
  obtain ⟨publication, published, same⟩ := Option.map_eq_some_iff.mp found
  have prefixed := matched subscription live
  rw [← same] at prefixed
  exact ⟨publication, subscription, published, live,
    exchange.pushed_of_matched live (List.mem_of_getElem? published) prefixed⟩

/-- An item is handed to one subscription: its partition has one owner. -/
theorem nodup_receivedKeys (exchange : Exchange edge start actions)
    (once : (handOvers start actions).Nodup) : (receivedKeys edge start actions).Nodup := by
  apply List.Nodup.map_on _ (once.filter _)
  intro g first h second same
  obtain ⟨publication, s, published, live, source, topic⟩ := exchange.handed first
  obtain ⟨publication', s', published', live', _, topic'⟩ := exchange.handed second
  obtain ⟨senders, indices⟩ := Prod.mk.injEq .. ▸ same
  rw [← senders, ← indices, published] at published'
  obtain rfl := Option.some.inj published'
  have filed := exchange.filed (List.mem_of_getElem? published)
  simp only [source] at filed
  obtain ⟨_, _, _, _, name⟩ := filed
  obtain ⟨root, parsed, _⟩ := partitionName_ok.mp name
  have parsed_at (i : ι) :
      Platform.nameOfUri ((start i).syncPrefix ++ "/" ++ edge) = some root := by
    rw [exchange.application i g.sender, parsed]
  obtain ⟨p, held, named⟩ := exchange.subscribed (parsed_at g.receiver) live
  obtain ⟨q, held', named'⟩ := exchange.subscribed (parsed_at h.receiver) live'
  have partition : p = q := partitionTopic_injective root
    (named.symm.trans (topic.trans (topic'.symm.trans named')))
  subst partition
  have receivers := exchange.tiles.disjoint _ _ p held held'
  rw [← receivers] at live'
  -- Topics of one consumer's subscriptions differ, so both are the same subscription.
  have distinct : (((run start actions g.receiver).subscriptionsOf edge).map
      (fun entry => entry.2.topic)).Nodup := by
    rw [(exchange.holding g.receiver).topics (by rw [exchange.topicOf _ g.receiver, parsed_at])]
    exact (exchange.tiles.nodup g.receiver).map (partitionTopic_injective root)
  have handles := congrArg Prod.fst
    (List.inj_on_of_nodup_map distinct live live' (topic.trans topic'.symm))
  cases g
  cases h
  simp_all

theorem received_of_pushed (exchange : Exchange edge start actions)
    (once : ExactlyOnce start actions) {j : ι} {index : Nat} {publication : Publication}
    (found : (run start actions j).svsPubSub.publications[index]? = some publication)
    (source : publication.source = .pushed edge) :
    (j, index) ∈ receivedKeys edge start actions := by
  have filed := exchange.filed (List.mem_of_getElem? found)
  simp only [source] at filed
  obtain ⟨producer, p, produces, below, name⟩ := filed
  obtain ⟨i, owned, _⟩ := exchange.tiles.exists_owner ⟨j, producer, produces, below⟩
  obtain ⟨root, parsed, named⟩ := partitionName_ok.mp name
  have parsed_at : Platform.nameOfUri ((run start actions i).topicOf edge) = some root := by
    rw [exchange.topicOf i j, parsed]
  have topics := (exchange.holding i).topics parsed_at
  have listed : root ++ [Platform.fromNumber p.toUInt64] ∈
      ((run start actions i).subscriptionsOf edge).map (fun entry => entry.2.topic) := by
    rw [topics]
    exact List.mem_map_of_mem owned
  obtain ⟨⟨handle, subscription⟩, live, topic⟩ := List.mem_map.mp listed
  obtain ⟨live', received⟩ := List.mem_filter.mp live
  have consumes : edge ∈ (start i).iceflowConsumers := by
    rw [← exchange.mem_consumers i edge]
    have held := (exchange.wellFormed i).held _ live' edge (by simpa using received)
    by_contra unknown
    rw [handles, AList.lookup_eq_none.mpr unknown] at held
    cases held
  have different : i ≠ j := by
    rintro rfl
    exact exchange.apart i consumes (StringMap.mem_of_lookup produces)
  have published : (run start actions j).svsPubSub.subscriptionData index =
      some ⟨publication.name, (run start actions j).svsPubSub.nodePrefix,
        UInt64.ofNat (index + 1), publication.data⟩ := by
    rw [SVSPubSub.subscriptionData, found]
    rfl
  refine List.mem_map.mpr ⟨⟨i, handle, j, index⟩, List.mem_filter.mpr ⟨?_, ?_⟩, rfl⟩
  · exact once.all i handle j index different _ subscription published live'
      (by rw [topic, named])
  · exact goesTo_iff.mpr ⟨subscription, live⟩

/-- Over all nodes, the callbacks of an edge are called once with each item that was pushed
to it, and with nothing else. -/
theorem received_perm (exchange : Exchange edge start actions)
    (once : ExactlyOnce start actions) {all : List ι} (nodup : all.Nodup)
    (complete : ∀ i, i ∈ all) :
    (all.flatMap (fun i => (run start actions i).invokedItems edge)).Perm
      (all.flatMap (fun j => (run start actions j).pushedItems edge)) := by
  have accounted := exchange.accounted
  have invoked : all.flatMap (fun i => (run start actions i).invokedItems edge) =
      all.flatMap (fun i => (handOvers start actions).filterMap
        (itemFor edge (run start actions) i)) := by
    congr 1
    funext i
    exact accounted.invoked i
  have dispatched := Dispatch.flatMap_filterMap_perm nodup complete HandOver.receiver
    (f := itemFor edge (run start actions))
    (fun i h other => if_neg (fun both => other both.1.symm)) (handOvers start actions)
  have byKey : (handOvers start actions).filterMap
      (fun h => itemFor edge (run start actions) h.receiver h) =
        (receivedKeys edge start actions).filterMap (dataOf (run start actions)) := by
    rw [receivedKeys, List.filterMap_map, List.filterMap_filter]
    apply List.filterMap_congr
    intro h _
    simp [itemFor, dataOf, HandOver.key]
  have keys : (receivedKeys edge start actions).Perm (pushedKeys edge (run start actions) all) := by
    rw [List.perm_ext_iff_of_nodup (exchange.nodup_receivedKeys once.once)
      (nodup_pushedKeys edge _ nodup)]
    rintro ⟨j, index⟩
    rw [mem_pushedKeys complete]
    constructor
    · intro member
      obtain ⟨h, listed, same⟩ := List.mem_map.mp member
      obtain ⟨publication, _, published, _, source, _⟩ := exchange.handed listed
      cases same
      exact ⟨publication, published, source⟩
    · rintro ⟨publication, found, source⟩
      exact exchange.received_of_pushed once found source
  rw [invoked, pushedItems_eq]
  exact (dispatched.trans (byKey ▸ List.Perm.refl _)).trans (keys.filterMap _)

end Exchange

theorem partitionsOf_calls {edge : String} {start : ι → IceFlow μ} {actions : List (Action ι μ)}
    (constructed : ∀ i, (start i).Constructed)
    (settled : ∀ x ∈ Transition.steps step start actions, Settled edge x.1 x.2)
    (known : ∀ i partitions, .repartitionConsumer edge partitions ∈ callsOf i actions →
      edge ∈ (start i).iceflowConsumers) (i : ι) :
    partitionsOf edge start actions i = lastPartitions edge ((callsOf i actions).map Op.call) ∨
      partitionsOf edge start actions i = [] ∧
        Platform.nameOfUri ((start i).topicOf edge) = none := by
  cases parsed : Platform.nameOfUri ((start i).topicOf edge) with
  | none =>
    have holding := (constructed i).holding (quiet_of_settled settled i) edge
    refine Or.inr ⟨holding.nil_of_unparsed ?_, rfl⟩
    rw [IceFlow.topicOf, ((constructed i).run_producers _).1]
    exact parsed
  | some name =>
    left
    rw [partitionsOf]
    by_cases present : edge ∈ (start i).iceflowConsumers
    · rw [(constructed i).lastSuccessful_known present (by rw [parsed]; rfl), lastPartitions_called,
        called_operationsOf]
    · rw [(constructed i).lastSuccessful_unknown present, lastPartitions_of_none]
      intro op member
      obtain ⟨c, called, rfl⟩ := List.mem_map.mp member
      cases c with
      | repartitionConsumer e partitions =>
        refine decide_eq_false fun same => present ?_
        subst same
        exact known i partitions called
      | _ => rfl

theorem Exchange.of_calls {edge : String} {start : ι → IceFlow μ} {actions : List (Action ι μ)}
    (constructed : ∀ i, (start i).Constructed)
    (application : ∀ i j, (start i).syncPrefix = (start j).syncPrefix)
    (prepared : ∀ i, Prepared edge (callsOf i actions))
    (known : ∀ i partitions, .repartitionConsumer edge partitions ∈ callsOf i actions →
      edge ∈ (start i).iceflowConsumers)
    (apart : ∀ i, edge ∈ (start i).iceflowConsumers → edge ∉ (start i).iceflowProducers)
    (separated : ∀ i e, e ≠ edge →
      e ∈ (start i).iceflowProducers ∨ e ∈ (start i).iceflowConsumers →
        Separated (start i).syncPrefix edge e)
    (tiles : Tiles (fun p => ∃ j producer, (start j).iceflowProducers.lookup edge = some producer ∧
      p < producer.numberOfPartitions) (fun i =>
        lastPartitions edge ((callsOf i actions).map Op.call))) :
    Exchange edge start actions := by
  have settled := settled_of_prepared constructed prepared known
  have partitions := partitionsOf_calls constructed settled known
  refine ⟨constructed, application, settled, apart, separated, ?_⟩
  have inside (i : ι) (p : UInt32) (held : p ∈ partitionsOf edge start actions i) :
      p ∈ lastPartitions edge ((callsOf i actions).map Op.call) := by
    rcases partitions i with same | ⟨nothing, _⟩
    · exact same ▸ held
    · rw [nothing] at held
      cases held
  constructor
  · intro i
    rcases partitions i with same | ⟨nothing, _⟩
    · exact same ▸ tiles.nodup i
    · rw [nothing]
      exact List.nodup_nil
  · exact fun i j p held held' => tiles.disjoint i j p (inside i p held) (inside j p held')
  · rintro p ⟨j, producer, found, below⟩
    obtain ⟨i, held⟩ := tiles.covers p ⟨j, producer, found, below⟩
    rcases partitions i with same | ⟨_, unparsed⟩
    · exact ⟨i, same ▸ held⟩
    · -- The producer of the edge was constructed, so its topic is a name.
      obtain ⟨name, parsed⟩ := producer.pubTopic_parses
      rw [((constructed j).wellFormed.producer_fixed edge producer found).1, IceFlow.topicOf,
        application j i] at parsed
      rw [IceFlow.topicOf, parsed] at unparsed
      cases unparsed

/-- Nodes of one application are called once with each item of an edge, and with nothing else,
if no node feeds itself, no other edge mixes with it, and each consumer gets its callback
before its partitions, which together are those of the producers, each once. -/
theorem received_once {edge : String} {start : ι → IceFlow μ} {actions : List (Action ι μ)}
    (constructed : ∀ i, (start i).Constructed)
    (application : ∀ i j, (start i).syncPrefix = (start j).syncPrefix)
    (prepared : ∀ i, Prepared edge (callsOf i actions))
    (known : ∀ i partitions, .repartitionConsumer edge partitions ∈ callsOf i actions →
      edge ∈ (start i).iceflowConsumers)
    (apart : ∀ i, edge ∈ (start i).iceflowConsumers → edge ∉ (start i).iceflowProducers)
    (separated : ∀ i e, e ≠ edge →
      e ∈ (start i).iceflowProducers ∨ e ∈ (start i).iceflowConsumers →
        Separated (start i).syncPrefix edge e)
    (tiles : Tiles (fun p => ∃ j producer, (start j).iceflowProducers.lookup edge = some producer ∧
      p < producer.numberOfPartitions) (fun i =>
        lastPartitions edge ((callsOf i actions).map Op.call)))
    (once : ExactlyOnce start actions) {all : List ι} (nodup : all.Nodup)
    (complete : ∀ i, i ∈ all) :
    (all.flatMap (fun i => (run start actions i).invokedItems edge)).Perm
      (all.flatMap (fun j => (run start actions j).pushedItems edge)) :=
  (Exchange.of_calls constructed application prepared known apart separated tiles).received_perm
    once nodup complete

end Network
end

section
open scoped Iceflow.Reference
open WordCount

namespace Network

/-- The producers draw the partitions in turn. -/
def drawing : Environment Unit := { environment "1" with generator := fun _ n => UInt32.ofNat n }

def drawingSource : IceFlow Unit :=
  (IceFlow.construct dag "text2lines" drawing).toOption.get rfl

theorem constructed_drawingSource : drawingSource.Constructed :=
  ⟨dag, "text2lines", drawing, rfl⟩

/-- The source, and two instances that share its partitions. -/
def lineNodes (reader : Option Bool) : IceFlow Unit :=
  reader.elim drawingSource (fun second => if second then secondSplitter else firstSplitter)

def lineCalls : List (Option Bool × Call Unit) :=
  [(some false, .registerProsumerCallback "t2l" (fun memory _ _ => .done memory)),
    (some true, .registerProsumerCallback "t2l" (fun memory _ _ => .done memory)),
    (none, .pushData "t2l" [97]), (some false, .repartitionConsumer "t2l" [0, 2]),
    (none, .pushData "t2l" [98]), (some true, .repartitionConsumer "t2l" [1])]

/-- The lines are handed over, the second one first, and their acknowledgements. -/
def lineActions : List (Action (Option Bool) Unit) :=
  lineCalls.map (fun x => .call x.1 x.2) ++
    [.deliver (some true) (Reference.handle 2) none 1 0,
      .deliver (some false) (Reference.handle 2) none 0 0,
      .deliver none (Reference.handle 1) (some true) 0 0,
      .deliver none (Reference.handle 1) (some false) 0 0]

/-- The line with this sequence number, which is in the partition before it. -/
def line (seqNo : UInt64) (data : Bytes) : SubscriptionData :=
  ⟨Reference.components ["WordCount", "t2l"] ++ [Platform.fromNumber (seqNo - 1)],
    Reference.components ["node-WordCount", "1"], seqNo, data⟩

/-- What a reader acknowledges first. -/
def lineAcknowledged (reader : String) (data : Bytes) : SubscriptionData :=
  ⟨Reference.components ["WordCount", "t2l", "backchannel"],
    Reference.components ["node-WordCount", reader], 1, data⟩

theorem lineTopic_parsed : Platform.nameOfUri ("WordCount" ++ "/" ++ "t2l") =
    some (Reference.components ["WordCount", "t2l"]) := by decide

theorem wordTopic_parsed : Platform.nameOfUri ("WordCount" ++ "/" ++ "l2w") =
    some (Reference.components ["WordCount", "l2w"]) := by decide

theorem exactlyOnce_lineActions : ExactlyOnce lineNodes lineActions := by
  have follows := Follows.calls lineNodes lineCalls
  have follows := follows.deliver ⟨some true, Reference.handle 2, none, 1⟩ (by decide)
    (line 2 [98]) (by decide) (by decide) 0
  have follows := follows.deliver ⟨some false, Reference.handle 2, none, 0⟩ (by decide)
    (line 1 [97]) (by decide) (by decide) 0
  have follows := follows.deliver ⟨none, Reference.handle 1, some true, 0⟩ (by decide)
    (lineAcknowledged "4" [50]) (by decide) (by decide) 0
  have follows := follows.deliver ⟨none, Reference.handle 1, some false, 0⟩ (by decide)
    (lineAcknowledged "3" [49]) (by decide) (by decide) 0
  exact follows.exactlyOnce [none, some false, some true]
    (by rintro (_ | _ | _) <;> decide) (by decide) (by decide)

theorem received_once_lineActions :
    ([none, some false, some true].flatMap
        (fun i => (run lineNodes lineActions i).invokedItems "t2l")).Perm
      ([none, some false, some true].flatMap
        (fun j => (run lineNodes lineActions j).pushedItems "t2l")) := by
  have three : (drawingSource.iceflowProducers.lookup "t2l").map
      IceflowProducer.numberOfPartitions = some 3 := by decide
  apply received_once
  case once => exact exactlyOnce_lineActions
  case constructed =>
    rintro (_ | _ | _)
    · exact constructed_drawingSource
    · exact constructed_firstSplitter
    · exact constructed_secondSplitter
  case application => rintro (_ | _ | _) (_ | _ | _) <;> rfl
  case prepared =>
    rintro (_ | _ | _)
    · exact prepared_of_pushes "t2l" (by simp [callsOf, lineActions, lineCalls])
    · exact prepared_of_registered "t2l" rfl
    · exact prepared_of_registered "t2l" rfl
  case known =>
    rintro (_ | _ | _) partitions called
    · simp [callsOf, lineActions, lineCalls] at called
    · decide
    · decide
  case apart => rintro (_ | _ | _) <;> decide
  case separated =>
    have ids (i : Option Bool) :
        ∀ e ∈ (lineNodes i).iceflowProducers.keys ++ (lineNodes i).iceflowConsumers.keys,
          e = "t2l" ∨ e = "l2w" := by
      rcases i with _ | _ | _ <;> decide
    intro i e other used
    rcases ids i e (List.mem_append.mpr used) with same | rfl
    · contradiction
    · have topic : (lineNodes i).syncPrefix = "WordCount" := by rcases i with _ | _ | _ <;> rfl
      rw [topic]
      exact .of_length_eq lineTopic_parsed wordTopic_parsed (by decide) rfl
  case tiles =>
    have lists (i : Option Bool) : lastPartitions "t2l" ((callsOf i lineActions).map Op.call) =
        i.elim [] (fun second => if second then [1] else [0, 2]) := by
      rcases i with _ | _ | _ <;> rfl
    simp only [lists]
    refine ⟨by rintro (_ | _ | _) <;> decide, ?_, ?_⟩
    · rintro (_ | _ | _) (_ | _ | _) p first second <;> simp_all
    rintro p ⟨j, producer, found, below⟩
    rcases j with _ | _ | _
    · change drawingSource.iceflowProducers.lookup "t2l" = some producer at found
      rw [found] at three
      rw [Option.some.inj three] at below
      have below := UInt32.lt_iff_toNat_lt.mp below
      change p.toNat < 3 at below
      have parts : p = 0 ∨ p = 1 ∨ p = 2 := by
        simp only [← UInt32.toNat_inj]
        change p.toNat = 0 ∨ p.toNat = 1 ∨ p.toNat = 2
        omega
      rcases parts with rfl | rfl | rfl
      · exact ⟨some false, by decide⟩
      · exact ⟨some true, by decide⟩
      · exact ⟨some false, by decide⟩
    · cases found
    · cases found
  case nodup => decide
  case complete => rintro (_ | _ | _) <;> decide

end Network
end
end Iceflow
