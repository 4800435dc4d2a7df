import Iceflow.Node.Serving

/-! The parts of a repartition and of a statistics query on their own: one more subscription
of a consumer, and a copy of a consumer, which is asked and destroyed. -/
namespace Iceflow
open Registration
variable [Platform] {μ : Type}

namespace IceFlow

structure Joined (n : IceFlow μ) (edge : String) (consumer : IceflowConsumer μ) (topic : Name)
    (partition : UInt32) (handle : Handle) (n' : IceFlow μ) : Prop where
  node_eq : n' = { n with
    svsPubSub := { n.svsPubSub with subscriptions := n'.svsPubSub.subscriptions }
    iceflowConsumers := n.iceflowConsumers.insert edge { consumer with
      subscriptionHandles := consumer.subscriptionHandles ++ [handle] } }
  parsed : Platform.nameOfUri (n.topicOf edge) = some topic
  entries : n'.svsPubSub.subscriptions.entries = n.svsPubSub.subscriptions.entries ++
    [(handle, IceflowConsumer.subscriptionFor topic edge partition)]
  issued : n'.svsPubSub.subscriptions.issued = handle :: n.svsPubSub.subscriptions.issued
  fresh : handle ∉ n.svsPubSub.subscriptions.issued

namespace Joined
variable {n n' : IceFlow μ} {edge : String} {consumer : IceflowConsumer μ} {topic : Name}
  {partition : UInt32} {handle : Handle}

theorem lookup (joined : Joined n edge consumer topic partition handle n') (e : String) :
    n'.iceflowConsumers.lookup e =
      if e = edge then some { consumer with
        subscriptionHandles := consumer.subscriptionHandles ++ [handle] }
      else n.iceflowConsumers.lookup e := by
  rw [joined.node_eq]
  exact StringMap.lookup_insert _ _ _ e

theorem handles (joined : Joined n edge consumer topic partition handle n')
    (found : n.iceflowConsumers.lookup edge = some consumer) (e : String) :
    n'.handles e = if e = edge then n.handles edge ++ [handle] else n.handles e := by
  have before : n.handles edge = consumer.subscriptionHandles := by simp [IceFlow.handles, found]
  rw [before]
  unfold IceFlow.handles
  rw [joined.lookup]
  split <;> rfl

theorem topicOf (joined : Joined n edge consumer topic partition handle n') (e : String) :
    n'.topicOf e = n.topicOf e := by
  rw [joined.node_eq]
  rfl

theorem mem_entries (joined : Joined n edge consumer topic partition handle n')
    {entry : Handle × Subscription} (member : entry ∈ n'.svsPubSub.subscriptions.entries) :
    entry ∈ n.svsPubSub.subscriptions.entries ∨
      entry = (handle, IceflowConsumer.subscriptionFor topic edge partition) := by
  rw [joined.entries, List.mem_append, List.mem_singleton] at member
  exact member

theorem subscriptionsOf (joined : Joined n edge consumer topic partition handle n')
    (e : String) : n'.subscriptionsOf e = n.subscriptionsOf e ++
      if e = edge then [(handle, IceflowConsumer.subscriptionFor topic edge partition)] else [] := by
  rw [IceFlow.subscriptionsOf, joined.entries, List.filter_append, IceFlow.subscriptionsOf]
  congr 1
  split
  · rename_i here
    simp [IceflowConsumer.subscriptionFor, here]
  · rename_i other
    simp [IceflowConsumer.subscriptionFor, Ne.symm other]

theorem wellFormed (joined : Joined n edge consumer topic partition handle n')
    (found : n.iceflowConsumers.lookup edge = some consumer) (wf : WellFormed n) :
    WellFormed n' := by
  have others : n'.nodePrefix = n.nodePrefix ∧ n'.syncPrefix = n.syncPrefix ∧
      n'.svsPubSub.nodePrefix = n.svsPubSub.nodePrefix ∧
      n'.svsPubSub.syncPrefix = n.svsPubSub.syncPrefix ∧
      n'.svsPubSub.expired = n.svsPubSub.expired ∧ n'.iceflowProducers = n.iceflowProducers := by
    rw [joined.node_eq]
    exact ⟨rfl, rfl, rfl, rfl, rfl, rfl⟩
  obtain ⟨nodePrefix, syncPrefix, svsNode, svsSync, expired, producers⟩ := others
  have handles := joined.handles found
  constructor
  case live => rw [expired, wf.live]
  case nodePrefix_parses => rw [nodePrefix, svsNode, wf.nodePrefix_parses]
  case syncPrefix_parses => rw [syncPrefix, svsSync, wf.syncPrefix_parses]
  case consumer_fixed =>
    intro e c present
    rw [joined.lookup] at present
    rw [joined.topicOf]
    split at present
    · rename_i here
      cases present
      rw [here]
      exact wf.consumer_fixed edge consumer found
    · exact wf.consumer_fixed e c present
  case producer_fixed =>
    intro e p present
    rw [producers] at present
    rw [joined.topicOf, nodePrefix]
    exact wf.producer_fixed e p present
  case captured =>
    intro entry member a b received
    rw [nodePrefix, syncPrefix]
    rcases joined.mem_entries member with old | rfl
    · exact wf.captured entry old a b received
    · cases received
  case held =>
    intro entry member e received
    rw [handles]
    rcases joined.mem_entries member with old | rfl
    · split
      · rename_i here
        exact List.mem_append_left _ (wf.held entry old edge (here ▸ received))
      · exact wf.held entry old e received
    · cases received
      rw [if_pos rfl]
      exact List.mem_append_right _ (List.mem_singleton_self _)
  case owner =>
    intro entry member e held
    rw [handles] at held
    rcases joined.mem_entries member with old | rfl
    · split at held
      · rename_i here
        rcases List.mem_append.mp held with before | new
        · rw [here]
          exact wf.owner entry old edge before
        · -- The new handle is not that of an old entry.
          rw [List.mem_singleton] at new
          exact absurd (n.svsPubSub.subscriptions.entries_issued entry old) (new ▸ joined.fresh)
      · exact wf.owner entry old e held
    · split at held
      · rename_i here
        rw [here]
        rfl
      · exact absurd (wf.handles_issued e _ held) joined.fresh
  case handles_issued =>
    intro e h held
    rw [joined.issued]
    rw [handles] at held
    split at held
    · rcases List.mem_append.mp held with before | new
      · exact List.mem_cons_of_mem _ (wf.handles_issued edge h before)
      · rw [List.mem_singleton.mp new]
        exact List.mem_cons_self
    · exact List.mem_cons_of_mem _ (wf.handles_issued e h held)
  case partition_topic =>
    intro entry member e received
    rw [joined.topicOf]
    rcases joined.mem_entries member with old | rfl
    · exact wf.partition_topic entry old e received
    · cases received
      exact ⟨topic, partition, joined.parsed, rfl⟩

end Joined

/-- A consumer of a well-formed node subscribes unless the topic of its edge is no name. -/
theorem subscribeToTopicPartition_known {n : IceFlow μ} (wf : WellFormed n) {edge : String}
    {consumer : IceflowConsumer μ} (found : n.iceflowConsumers.lookup edge = some consumer)
    (partition : UInt32) :
    match consumer.subscribeToTopicPartition n.svsPubSub partition with
    | .error e => e.isRuntimeError = true ∧ Platform.nameOfUri (n.topicOf edge) = none
    | .ok (consumer', svsPubSub) => ∃ topic handle, Joined n edge consumer topic partition handle
        { n with svsPubSub, iceflowConsumers := n.iceflowConsumers.insert edge consumer' } := by
  obtain ⟨topic_eq, named⟩ := wf.consumer_fixed edge consumer found
  cases parsed : Platform.nameOfUri (n.topicOf edge) with
  | none =>
    rw [IceflowConsumer.subscribeToTopicPartition_unparsed consumer n.svsPubSub wf.live
      (by rw [topic_eq, parsed])]
    exact ⟨rfl, rfl⟩
  | some topic =>
    have topic_parsed : Platform.nameOfUri consumer.subTopic = some topic := by
      rw [topic_eq, parsed]
    rw [IceflowConsumer.subscribeToTopicPartition_parsed consumer n.svsPubSub wf.live topic_parsed]
    exact ⟨topic, _, rfl, parsed, by rw [Registry.entries_register, named],
      Registry.issued_register _ _ _, Registry.register_fresh _ _ _⟩

/-- The effect of the destructor of a copy of a consumer: it removes what is under the handles
that were copied. -/
structure Released (n : IceFlow μ) (handles : List Handle) (n' : IceFlow μ) : Prop where
  node_eq : n' = { n with
    svsPubSub := { n.svsPubSub with subscriptions := n'.svsPubSub.subscriptions } }
  entries : n'.svsPubSub.subscriptions.entries =
    n.svsPubSub.subscriptions.entries.filter (fun e => e.1 ∉ handles)
  issued : n'.svsPubSub.subscriptions.issued = n.svsPubSub.subscriptions.issued

theorem released_of_copy {n : IceFlow μ} (wf : WellFormed n) (copy : IceflowConsumer μ)
    (now : Int) : Released n copy.subscriptionHandles { n with
      svsPubSub := (copy.getConsumptionStats now).2.destroy n.svsPubSub } := by
  have destroyed : (copy.getConsumptionStats now).2.destroy n.svsPubSub =
      { n.svsPubSub with subscriptions :=
        n.svsPubSub.subscriptions.unregisterAll copy.subscriptionHandles } := by
    rw [IceflowConsumer.destroy, IceflowConsumer.unsubscribeFromAllPartitions_live _ wf.live]
    rfl
  rw [destroyed]
  exact ⟨rfl, Registry.entries_unregisterAll _ _, Registry.issued_unregisterAll _ _⟩

namespace Released
variable {n n' : IceFlow μ} {handles : List Handle}

theorem wellFormed (released : Released n handles n') (wf : WellFormed n) : WellFormed n' := by
  rw [released.node_eq]
  refine wf.shrink ?_ released.issued
  intro entry member
  rw [released.entries] at member
  exact List.mem_of_mem_filter member

theorem subscriptionsOf (released : Released n handles n') (e : String) :
    n'.subscriptionsOf e = (n.subscriptionsOf e).filter (fun entry => entry.1 ∉ handles) := by
  rw [IceFlow.subscriptionsOf, released.entries, List.filter_comm, IceFlow.subscriptionsOf]

end Released

/-- What holds from one state of a node to any later one: the edges are the same, and entries
of the table that are new are under new handles. -/
structure Later (n n' : IceFlow μ) : Prop where
  consumers : ∀ edge, edge ∈ n'.iceflowConsumers ↔ edge ∈ n.iceflowConsumers
  producers : ∀ edge, edge ∈ n'.iceflowProducers ↔ edge ∈ n.iceflowProducers
  topicOf : ∀ edge, n'.topicOf edge = n.topicOf edge
  issued : ∀ h ∈ n.svsPubSub.subscriptions.issued, h ∈ n'.svsPubSub.subscriptions.issued
  entries : ∀ entry ∈ n'.svsPubSub.subscriptions.entries,
    entry ∈ n.svsPubSub.subscriptions.entries ∨ entry.1 ∉ n.svsPubSub.subscriptions.issued

theorem Later.refl (n : IceFlow μ) : Later n n :=
  ⟨fun _ => Iff.rfl, fun _ => Iff.rfl, fun _ => rfl, fun _ old => old, fun _ old => Or.inl old⟩

theorem Later.trans {n n' n'' : IceFlow μ} (first : Later n n') (second : Later n' n'') :
    Later n n'' := by
  refine ⟨fun edge => (second.consumers edge).trans (first.consumers edge),
    fun edge => (second.producers edge).trans (first.producers edge),
    fun edge => (second.topicOf edge).trans (first.topicOf edge),
    fun h old => second.issued h (first.issued h old), fun entry member => ?_⟩
  rcases second.entries entry member with old | fresh
  · exact first.entries entry old
  · exact Or.inr (fun reused => fresh (first.issued _ reused))

theorem Frame.later {n n' : IceFlow μ} (frame : Frame n n') : Later n n' :=
  ⟨frame.mem_consumers, frame.mem_producers, frame.topicOf,
    fun h old => by rwa [frame.subscriptions],
    fun entry member => Or.inl (by rwa [← frame.subscriptions])⟩

theorem Repartitioned.later {n n' : IceFlow μ} {edge : String} {consumer : IceflowConsumer μ}
    {partitions : List UInt32} {added : List Handle}
    (done : Repartitioned n edge consumer partitions added n')
    (found : n.iceflowConsumers.lookup edge = some consumer) : Later n n' := by
  refine ⟨fun e => ?_, fun e => ?_, done.topicOf, fun h old => ?_, fun entry member => ?_⟩
  · rw [done.node_eq]
    exact mem_consumers_insert found e
  · rw [done.node_eq]
  · rw [done.issued]
    exact List.mem_append_right _ old
  · rcases done.mem_entries member with ⟨old, _⟩ | ⟨new, _⟩
    · exact Or.inl old
    · exact Or.inr (done.fresh _ new)

theorem Joined.later {n n' : IceFlow μ} {edge : String} {consumer : IceflowConsumer μ}
    {topic : Name} {partition : UInt32} {handle : Handle}
    (joined : Joined n edge consumer topic partition handle n')
    (found : n.iceflowConsumers.lookup edge = some consumer) : Later n n' := by
  refine ⟨fun e => ?_, fun e => ?_, joined.topicOf, fun h old => ?_, fun entry member => ?_⟩
  · rw [joined.node_eq]
    exact mem_consumers_insert found e
  · rw [joined.node_eq]
  · rw [joined.issued]
    exact List.mem_cons_of_mem _ old
  · rcases joined.mem_entries member with old | rfl
    · exact Or.inl old
    · exact Or.inr joined.fresh

theorem Released.later {n n' : IceFlow μ} {handles : List Handle}
    (released : Released n handles n') : Later n n' := by
  refine ⟨fun e => ?_, fun e => ?_, fun e => ?_, fun h old => ?_, fun entry member => ?_⟩
  · rw [released.node_eq]
  · rw [released.node_eq]
  · rw [released.node_eq]
    rfl
  · rwa [released.issued]
  · rw [released.entries] at member
    exact Or.inl (List.mem_of_mem_filter member)

theorem later_perform {n : IceFlow μ} (wf : WellFormed n) (op : Op μ) :
    Later n (op.perform n) := by
  cases effect_perform wf op with
  | framed frame _ => exact frame.later
  | repartitions edge partitions consumer added called found returned done => exact done.later found
  | queries now called =>
    subst called
    have entries := getConsumerStats_entries wf now
    simp only [Op.perform, Call.perform]
    rw [getConsumerStats_node wf.live] at entries ⊢
    refine ⟨fun _ => Iff.rfl, fun _ => Iff.rfl, fun _ => rfl, ?_, fun entry member => ?_⟩
    · rw [Registry.issued_unregisterAll]
      exact fun _ old => old
    · rw [entries] at member
      exact Or.inl (List.mem_of_mem_filter member)

/-- The handles of a copy of the consumer of an edge: what is still under them are
subscriptions of this consumer. -/
structure Copied (n : IceFlow μ) (edge : String) (handles : List Handle) : Prop where
  issued : ∀ h ∈ handles, h ∈ n.svsPubSub.subscriptions.issued
  owner : ∀ entry ∈ n.svsPubSub.subscriptions.entries, entry.1 ∈ handles →
    entry.2.receiver = .consumer edge

theorem Copied.of_lookup {n : IceFlow μ} (wf : WellFormed n) {edge : String}
    {consumer : IceflowConsumer μ} (found : n.iceflowConsumers.lookup edge = some consumer) :
    Copied n edge consumer.subscriptionHandles := by
  have handles : n.handles edge = consumer.subscriptionHandles := by simp [IceFlow.handles, found]
  rw [← handles]
  exact ⟨wf.handles_issued edge, fun entry member => wf.owner entry member edge⟩

theorem Copied.later {n n' : IceFlow μ} {edge : String} {handles : List Handle}
    (copied : Copied n edge handles) (later : Later n n') : Copied n' edge handles := by
  refine ⟨fun h held => later.issued h (copied.issued h held), fun entry member held => ?_⟩
  rcases later.entries entry member with old | fresh
  · exact copied.owner entry old held
  · exact absurd (copied.issued _ held) fresh

theorem Released.subscriptionsOf_other {n n' : IceFlow μ} {handles : List Handle}
    (released : Released n handles n') {edge other : String} (copied : Copied n edge handles)
    (different : other ≠ edge) : n'.subscriptionsOf other = n.subscriptionsOf other := by
  rw [released.subscriptionsOf, List.filter_eq_self]
  intro entry member
  rw [IceFlow.subscriptionsOf, List.mem_filter, decide_eq_true_eq] at member
  rw [decide_eq_true_eq]
  intro held
  rw [copied.owner entry member.1 held, Receiver.consumer.injEq] at member
  exact different member.2.symm

end IceFlow
end Iceflow
