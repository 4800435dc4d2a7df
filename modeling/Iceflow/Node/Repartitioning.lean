import Iceflow.Node.Construction

/-! Repartitioning a consumer replaces exactly its own live subscriptions, and a
statistics query removes those of every consumer. With the frame of all other
operations this carries well-formedness through every run of a node. -/
namespace Iceflow
open Registration
variable [Platform] {μ : Type}

namespace IceFlow

/-- The subscriptions that a list of partitions stands for: none if the topic of
the edge is no name. -/
def requested (n : IceFlow μ) (edge : String) (partitions : List UInt32) : List Subscription :=
  match Platform.nameOfUri (n.topicOf edge) with
  | some topic => partitions.map (IceflowConsumer.subscriptionFor topic edge)
  | none => []

theorem requested_nil (n : IceFlow μ) (edge : String) : n.requested edge [] = [] := by
  unfold requested
  split <;> rfl

theorem requested_append (n : IceFlow μ) (edge : String) (first second : List UInt32) :
    n.requested edge (first ++ second) = n.requested edge first ++ n.requested edge second := by
  unfold requested
  split
  · exact List.map_append
  · rfl

theorem receiver_of_requested {n : IceFlow μ} {edge : String} {partitions : List UInt32}
    {subscription : Subscription} (member : subscription ∈ n.requested edge partitions) :
    subscription.receiver = .consumer edge ∧ ∃ topic partition,
      Platform.nameOfUri (n.topicOf edge) = some topic ∧ partition ∈ partitions ∧
        subscription = IceflowConsumer.subscriptionFor topic edge partition := by
  unfold requested at member
  split at member
  · rename_i topic parsed
    obtain ⟨partition, listed, rfl⟩ := List.mem_map.mp member
    exact ⟨rfl, topic, partition, parsed, listed, rfl⟩
  · simp at member

/-- The effect of a successful lookup followed by `repartition`. -/
structure Repartitioned (n : IceFlow μ) (edge : String) (consumer : IceflowConsumer μ)
    (partitions : List UInt32) (added : List Handle) (n' : IceFlow μ) : Prop where
  node_eq : n' = { n with
    svsPubSub := { n.svsPubSub with subscriptions := n'.svsPubSub.subscriptions }
    iceflowConsumers :=
      n.iceflowConsumers.insert edge { consumer with subscriptionHandles := added } }
  entries : n'.svsPubSub.subscriptions.entries =
    n.svsPubSub.subscriptions.entries.filter (fun e => e.2.receiver ≠ .consumer edge) ++
      added.zip (n.requested edge partitions)
  length : added.length = (n.requested edge partitions).length
  issued : n'.svsPubSub.subscriptions.issued =
    added.reverse ++ n.svsPubSub.subscriptions.issued
  fresh : ∀ h ∈ added, h ∉ n.svsPubSub.subscriptions.issued

/-- By ownership, removing a consumer's handles removes its subscriptions. -/
theorem filter_handles {n : IceFlow μ} (wf : WellFormed n) {edge : String}
    {consumer : IceflowConsumer μ} (found : n.iceflowConsumers.lookup edge = some consumer) :
    n.svsPubSub.subscriptions.entries.filter (fun e => e.1 ∉ consumer.subscriptionHandles) =
      n.svsPubSub.subscriptions.entries.filter (fun e => e.2.receiver ≠ .consumer edge) := by
  have handles : n.handles edge = consumer.subscriptionHandles := by simp [IceFlow.handles, found]
  apply List.filter_congr
  intro entry member
  have same : entry.1 ∈ consumer.subscriptionHandles ↔ entry.2.receiver = .consumer edge := by
    rw [← handles]
    exact ⟨wf.owner entry member edge, wf.held entry member edge⟩
  simp [same]

theorem repartitionConsumer_unknown {n : IceFlow μ} {edge : String}
    (unknown : n.iceflowConsumers.lookup edge = none) (partitions : List UInt32) :
    n.repartitionConsumer edge partitions = (.error (noConsumer edge), n) := by
  simp [repartitionConsumer, unknown]

theorem repartitionConsumer_known {n : IceFlow μ} (wf : WellFormed n) {edge : String}
    {consumer : IceflowConsumer μ} (found : n.iceflowConsumers.lookup edge = some consumer)
    (partitions : List UInt32) :
    (n.repartitionConsumer edge partitions).1 = .ok () ∧ ∃ added,
      Repartitioned n edge consumer partitions added (n.repartitionConsumer edge partitions).2 := by
  obtain ⟨topic_eq, named⟩ := wf.consumer_fixed edge consumer found
  simp only [repartitionConsumer, found, IceflowConsumer.repartition,
    IceflowConsumer.unsubscribeFromAllPartitions_live consumer wf.live]
  have remaining : (n.svsPubSub.subscriptions.unregisterAll consumer.subscriptionHandles).entries =
      n.svsPubSub.subscriptions.entries.filter (fun e => e.2.receiver ≠ .consumer edge) := by
    rw [Registry.entries_unregisterAll, filter_handles wf found]
  cases parsed : Platform.nameOfUri (n.topicOf edge) with
  | some topic =>
    have topic_parsed : Platform.nameOfUri consumer.subTopic = some topic := by
      rw [topic_eq, parsed]
    obtain ⟨consumer', svs', added, runs, loop⟩ :=
      IceflowConsumer.subscribeToPartitions_parsed { consumer with subscriptionHandles := [] }
        { n.svsPubSub with subscriptions :=
          n.svsPubSub.subscriptions.unregisterAll consumer.subscriptionHandles }
        wf.live topic_parsed partitions
    have made : n.requested edge partitions =
        partitions.map (IceflowConsumer.subscriptionFor topic edge) := by simp [requested, parsed]
    simp only [runs]
    refine ⟨rfl, added, ?_, ?_, ?_, ?_, ?_⟩
    · rw [loop.consumer_eq, loop.svs_eq]
      rfl
    · rw [loop.entries, remaining, made, named]
    · rw [made, List.length_map, loop.length]
    · rw [loop.issued, Registry.issued_unregisterAll]
    · intro h member
      simpa only [Registry.issued_unregisterAll] using loop.fresh h member
  | none =>
    have made : n.requested edge partitions = [] := by simp [requested, parsed]
    have ended := IceflowConsumer.subscribeToPartitions_unparsed
      { consumer with subscriptionHandles := [] }
      { n.svsPubSub with subscriptions :=
        n.svsPubSub.subscriptions.unregisterAll consumer.subscriptionHandles }
      wf.live (by rw [topic_eq, parsed]) partitions
    have done : Repartitioned n edge consumer partitions [] { n with
        svsPubSub := { n.svsPubSub with subscriptions :=
          n.svsPubSub.subscriptions.unregisterAll consumer.subscriptionHandles }
        iceflowConsumers :=
          n.iceflowConsumers.insert edge { consumer with subscriptionHandles := [] } } :=
      ⟨rfl, by rw [remaining, made]; simp, by simp [made], by simp, by simp⟩
    rw [ended]
    split_ifs
    · exact ⟨rfl, [], done⟩
    · exact ⟨rfl, [], done⟩

namespace Repartitioned

variable {n n' : IceFlow μ} {edge : String} {consumer : IceflowConsumer μ}
  {partitions : List UInt32} {added : List Handle}

theorem lookup (done : Repartitioned n edge consumer partitions added n') (e : String) :
    n'.iceflowConsumers.lookup e =
      if e = edge then some { consumer with subscriptionHandles := added }
      else n.iceflowConsumers.lookup e := by
  rw [done.node_eq]
  exact StringMap.lookup_insert _ _ _ e

theorem handles (done : Repartitioned n edge consumer partitions added n') (e : String) :
    n'.handles e = if e = edge then added else n.handles e := by
  unfold IceFlow.handles
  rw [done.lookup]
  split <;> rfl

theorem topicOf (done : Repartitioned n edge consumer partitions added n') (e : String) :
    n'.topicOf e = n.topicOf e := by
  rw [done.node_eq]
  rfl

theorem mem_entries (done : Repartitioned n edge consumer partitions added n')
    {entry : Handle × Subscription} (member : entry ∈ n'.svsPubSub.subscriptions.entries) :
    (entry ∈ n.svsPubSub.subscriptions.entries ∧ entry.2.receiver ≠ .consumer edge) ∨
      (entry.1 ∈ added ∧ entry.2 ∈ n.requested edge partitions) := by
  rw [done.entries] at member
  rcases List.mem_append.mp member with old | new
  · exact Or.inl (by simpa using old)
  · exact Or.inr (List.of_mem_zip new)

theorem subscriptionsOf_same (done : Repartitioned n edge consumer partitions added n') :
    n'.subscriptionsOf edge = added.zip (n.requested edge partitions) := by
  have none_left : (n.svsPubSub.subscriptions.entries.filter
      (fun e => e.2.receiver ≠ .consumer edge)).filter
        (fun e => e.2.receiver = .consumer edge) = [] := by
    simp [List.filter_filter]
  have all_new : (added.zip (n.requested edge partitions)).filter
      (fun e => e.2.receiver = .consumer edge) = added.zip (n.requested edge partitions) := by
    rw [List.filter_eq_self]
    intro entry member
    simp [(receiver_of_requested (List.of_mem_zip member).2).1]
  rw [subscriptionsOf, done.entries, List.filter_append, none_left, all_new, List.nil_append]

theorem subscriptionsOf_other (done : Repartitioned n edge consumer partitions added n')
    {other : String} (different : other ≠ edge) :
    n'.subscriptionsOf other = n.subscriptionsOf other := by
  have kept : (n.svsPubSub.subscriptions.entries.filter
      (fun e => e.2.receiver ≠ .consumer edge)).filter
        (fun e => e.2.receiver = .consumer other) = n.subscriptionsOf other := by
    rw [List.filter_filter, subscriptionsOf]
    apply List.filter_congr
    intro entry _
    by_cases received : entry.2.receiver = .consumer other <;> simp [received, different]
  have none_new : (added.zip (n.requested edge partitions)).filter
      (fun e => e.2.receiver = .consumer other) = [] := by
    rw [List.filter_eq_nil_iff]
    intro entry member
    simpa [(receiver_of_requested (List.of_mem_zip member).2).1] using different.symm
  rw [subscriptionsOf, done.entries, List.filter_append, kept, none_new, List.append_nil]

theorem wellFormed (done : Repartitioned n edge consumer partitions added n')
    (found : n.iceflowConsumers.lookup edge = some consumer) (wf : WellFormed n) :
    WellFormed n' := by
  have others : n'.nodePrefix = n.nodePrefix ∧ n'.syncPrefix = n.syncPrefix ∧
      n'.svsPubSub.nodePrefix = n.svsPubSub.nodePrefix ∧
      n'.svsPubSub.syncPrefix = n.svsPubSub.syncPrefix ∧
      n'.svsPubSub.expired = n.svsPubSub.expired ∧ n'.iceflowProducers = n.iceflowProducers := by
    rw [done.node_eq]
    exact ⟨rfl, rfl, rfl, rfl, rfl, rfl⟩
  obtain ⟨nodePrefix, syncPrefix, svsNode, svsSync, expired, producers⟩ := others
  have held_fresh {entry : Handle × Subscription}
      (old : entry ∈ n.svsPubSub.subscriptions.entries) : entry.1 ∉ added :=
    fun reused => done.fresh _ reused (n.svsPubSub.subscriptions.entries_issued entry old)
  constructor
  case live => rw [expired, wf.live]
  case nodePrefix_parses => rw [nodePrefix, svsNode, wf.nodePrefix_parses]
  case syncPrefix_parses => rw [syncPrefix, svsSync, wf.syncPrefix_parses]
  case consumer_fixed =>
    intro e c present
    rw [done.lookup] at present
    rw [done.topicOf]
    split at present
    · rename_i here
      cases present
      rw [here]
      exact wf.consumer_fixed edge consumer found
    · exact wf.consumer_fixed e c present
  case producer_fixed =>
    intro e p present
    rw [producers] at present
    rw [done.topicOf, nodePrefix]
    exact wf.producer_fixed e p present
  case captured =>
    intro entry member a b received
    rw [nodePrefix, syncPrefix]
    rcases done.mem_entries member with ⟨old, _⟩ | ⟨_, new⟩
    · exact wf.captured entry old a b received
    · rw [(receiver_of_requested new).1] at received
      contradiction
  case held =>
    intro entry member e received
    rw [done.handles]
    rcases done.mem_entries member with ⟨old, other⟩ | ⟨issued, new⟩
    · rw [if_neg (fun here : e = edge => other (here ▸ received))]
      exact wf.held entry old e received
    · rw [(receiver_of_requested new).1] at received
      rw [if_pos (by simpa using received.symm)]
      exact issued
  case owner =>
    intro entry member e held
    rw [done.handles] at held
    rcases done.mem_entries member with ⟨old, other⟩ | ⟨issued, new⟩
    · split at held
      · exact absurd held (held_fresh old)
      · exact wf.owner entry old e held
    · split at held
      · rename_i here
        rw [(receiver_of_requested new).1, here]
      · exact absurd (wf.handles_issued e _ held) (done.fresh _ issued)
  case handles_issued =>
    intro e h held
    rw [done.issued]
    rw [done.handles] at held
    split at held
    · exact List.mem_append_left _ (List.mem_reverse.mpr held)
    · exact List.mem_append_right _ (wf.handles_issued e h held)
  case partition_topic =>
    intro entry member e received
    rw [done.topicOf]
    rcases done.mem_entries member with ⟨old, _⟩ | ⟨_, new⟩
    · exact wf.partition_topic entry old e received
    · obtain ⟨receiver, topic, partition, parsed, _, made⟩ := receiver_of_requested new
      rw [receiver] at received
      cases received
      exact ⟨topic, partition, parsed, made⟩

end Repartitioned

/-- The destructors of the copies remove the handles of every consumer; nothing
else of the node changes. -/
theorem getConsumerStats_node {n : IceFlow μ} (live : n.svsPubSub.expired = false)
    (now : String → Int) : (n.getConsumerStats now).2 = { n with svsPubSub := { n.svsPubSub with
      subscriptions := n.svsPubSub.subscriptions.unregisterAll
        (n.iceflowConsumers.entries.flatMap (fun c => c.2.subscriptionHandles)) } } := by
  unfold getConsumerStats
  generalize (∅ : StringMap EdgeConsumptionStats) = result
  generalize n.iceflowConsumers.entries = consumers
  induction consumers generalizing n result with
  | nil => rfl
  | cons c rest ih =>
    have first : (c.2.getConsumptionStats (now c.1)).2.destroy n.svsPubSub =
        { n.svsPubSub with subscriptions :=
          n.svsPubSub.subscriptions.unregisterAll c.2.subscriptionHandles } := by
      rw [IceflowConsumer.destroy, IceflowConsumer.unsubscribeFromAllPartitions_live _ live]
      rfl
    have rest_eq := ih (n := { n with svsPubSub := { n.svsPubSub with
      subscriptions := n.svsPubSub.subscriptions.unregisterAll c.2.subscriptionHandles } })
      live (StringMap.emplace result c.1 (c.2.getConsumptionStats (now c.1)).1)
    simp only [List.foldl_cons, first, rest_eq]
    simp only [List.flatMap_cons, Registry.unregisterAll, List.foldl_append]

theorem getConsumerStats_entries {n : IceFlow μ} (wf : WellFormed n) (now : String → Int) :
    (n.getConsumerStats now).2.svsPubSub.subscriptions.entries =
      n.svsPubSub.subscriptions.entries.filter (fun e => !e.2.receiver.isConsumer) := by
  rw [getConsumerStats_node wf.live]
  simp only [Registry.entries_unregisterAll]
  apply List.filter_congr
  intro entry member
  have held : entry.1 ∈ n.iceflowConsumers.entries.flatMap (fun c => c.2.subscriptionHandles) ↔
      entry.2.receiver.isConsumer = true := by
    rw [List.mem_flatMap]
    constructor
    · rintro ⟨⟨edge, consumer⟩, present, held⟩
      have found : n.iceflowConsumers.lookup edge = some consumer :=
        AList.mem_lookup_iff.mpr present
      rw [wf.owner entry member edge (by simpa [IceFlow.handles, found] using held)]
      rfl
    · intro received
      cases receiver : entry.2.receiver with
      | backchannel nodePrefix syncPrefix => simp [receiver, Receiver.isConsumer] at received
      | consumer edge =>
        have held := wf.held entry member edge receiver
        unfold IceFlow.handles at held
        cases found : n.iceflowConsumers.lookup edge with
        | none => simp [found] at held
        | some consumer =>
          exact ⟨⟨edge, consumer⟩, AList.mem_lookup_iff.mp found, by simpa [found] using held⟩
  simp [held]

/-- What holds of all entries of the table stays when entries are removed. -/
theorem WellFormed.shrink {n : IceFlow μ} (wf : WellFormed n)
    {subscriptions : Registry Handle Subscription}
    (remain : ∀ entry ∈ subscriptions.entries, entry ∈ n.svsPubSub.subscriptions.entries)
    (issued : subscriptions.issued = n.svsPubSub.subscriptions.issued) :
    WellFormed { n with svsPubSub := { n.svsPubSub with subscriptions } } :=
  { wf with
    captured := fun entry member => wf.captured entry (remain entry member)
    held := fun entry member => wf.held entry (remain entry member)
    owner := fun entry member => wf.owner entry (remain entry member)
    handles_issued := fun edge h held => by
      rw [issued]
      exact wf.handles_issued edge h held
    partition_topic := fun entry member => wf.partition_topic entry (remain entry member) }

theorem wellFormed_getConsumerStats {n : IceFlow μ} (wf : WellFormed n) (now : String → Int) :
    WellFormed (n.getConsumerStats now).2 := by
  have entries := getConsumerStats_entries wf now
  rw [getConsumerStats_node wf.live] at entries ⊢
  refine wf.shrink ?_ (Registry.issued_unregisterAll _ _)
  intro entry member
  rw [entries] at member
  exact List.mem_of_mem_filter member

theorem mem_consumers_insert {n : IceFlow μ} {edge : String} {old new : IceflowConsumer μ}
    (found : n.iceflowConsumers.lookup edge = some old) (e : String) :
    e ∈ n.iceflowConsumers.insert edge new ↔ e ∈ n.iceflowConsumers := by
  rw [AList.mem_insert]
  constructor
  · rintro (rfl | present)
    · exact StringMap.mem_of_lookup found
    · exact present
  · exact Or.inr

/-- An operation that is not framed changes subscriptions and consumers only, and
keeps the edges that have a consumer. -/
theorem perform_unframed {n : IceFlow μ} (wf : WellFormed n) {op : Op μ}
    (unframed : op.framed = false) :
    ∃ subscriptions iceflowConsumers, op.perform n =
        { n with svsPubSub := { n.svsPubSub with subscriptions }, iceflowConsumers } ∧
      ∀ edge, edge ∈ iceflowConsumers ↔ edge ∈ n.iceflowConsumers := by
  cases op with
  | deliver handle subData now => contradiction
  | call c =>
    cases c with
    | repartitionConsumer edge partitions =>
      simp only [Op.perform, Call.perform]
      cases found : n.iceflowConsumers.lookup edge with
      | none =>
        rw [repartitionConsumer_unknown found]
        exact ⟨_, _, rfl, fun _ => Iff.rfl⟩
      | some consumer =>
        obtain ⟨_, added, done⟩ := repartitionConsumer_known wf found partitions
        exact ⟨_, _, done.node_eq, mem_consumers_insert found⟩
    | getConsumerStats now =>
      simp only [Op.perform, Call.perform]
      rw [getConsumerStats_node wf.live]
      exact ⟨_, _, rfl, fun _ => Iff.rfl⟩
    | _ => contradiction

/-- What an operation does to the subscriptions: nothing, or it repartitions a consumer
of the node, or it queries the statistics of all consumers. -/
inductive Effect (n : IceFlow μ) (op : Op μ) : Prop where
  | framed (frame : Frame n (op.perform n))
      (unknown : ∀ edge partitions, op = .call (.repartitionConsumer edge partitions) →
        n.iceflowConsumers.lookup edge = none)
  | repartitions (edge : String) (partitions : List UInt32) (consumer : IceflowConsumer μ)
      (added : List Handle) (called : op = .call (.repartitionConsumer edge partitions))
      (found : n.iceflowConsumers.lookup edge = some consumer)
      (returned : (n.repartitionConsumer edge partitions).1 = .ok ())
      (done : Repartitioned n edge consumer partitions added (op.perform n))
  | queries (now : String → Int) (called : op = .call (.getConsumerStats now))

theorem effect_perform {n : IceFlow μ} (wf : WellFormed n) (op : Op μ) : Effect n op := by
  cases framed : op.framed with
  | true =>
    refine .framed (Op.frame n framed) ?_
    rintro edge partitions rfl
    contradiction
  | false =>
    cases op with
    | deliver handle subData now => contradiction
    | call c =>
      cases c with
      | repartitionConsumer edge partitions =>
        cases found : n.iceflowConsumers.lookup edge with
        | none =>
          have same : (Op.call (.repartitionConsumer edge partitions)).perform n = n := by
            rw [Op.perform, Call.perform, repartitionConsumer_unknown found]
          refine .framed (same.symm ▸ .refl n) ?_
          rintro _ _ ⟨⟩
          exact found
        | some consumer =>
          obtain ⟨returned, added, done⟩ := repartitionConsumer_known wf found partitions
          exact .repartitions edge partitions consumer added rfl found returned done
      | getConsumerStats now => exact .queries now rfl
      | _ => contradiction

theorem wellFormed_perform {n : IceFlow μ} (wf : WellFormed n) (op : Op μ) :
    WellFormed (op.perform n) := by
  cases effect_perform wf op with
  | framed frame _ => exact frame.wellFormed wf
  | repartitions edge partitions consumer added called found returned done =>
    exact done.wellFormed found wf
  | queries now called =>
    subst called
    exact wellFormed_getConsumerStats wf now

theorem Constructed.wellFormed {n : IceFlow μ} (constructed : n.Constructed) : WellFormed n := by
  obtain ⟨dagParser, nodeName, environment, built⟩ := constructed
  exact (construct_fresh built).wellFormed

theorem Constructed.run_wellFormed {n : IceFlow μ} (constructed : n.Constructed)
    (ops : List (Op μ)) : WellFormed (n.run ops) :=
  Transition.run_invariant (P := WellFormed) (fun _ op wf => wellFormed_perform wf op)
    constructed.wellFormed ops

/-- What operations preserve in well-formed states holds of every reachable state. -/
theorem Constructed.run_invariant {n₀ : IceFlow μ} (constructed : n₀.Constructed)
    {P : IceFlow μ → Prop} (preserves : ∀ n (op : Op μ), WellFormed n → P n → P (op.perform n))
    (initial : P n₀) (ops : List (Op μ)) : P (n₀.run ops) := by
  induction ops using List.reverseRecOn with
  | nil => exact initial
  | append_singleton ops op ih =>
    rw [run_concat]
    exact preserves _ op (constructed.run_wellFormed ops) ih

end IceFlow
end Iceflow
