import Iceflow.NodeInstanceService
import Iceflow.Node.Repartitioning
import Iceflow.WordCount

/-! What a statistics query changes. `getProducerStats` changes nothing;
`getConsumerStats`, and with it `QueryStats`, removes the subscription of every
consumer, because the destructors of the copies unsubscribe the shared handles. -/
namespace Iceflow.IceFlow
open Registration

section
variable [Platform] {μ : Type}

/-- Two states with the same subscriptions, the same recorded handles and the
same partition sets. -/
structure SamePartitions (n n' : IceFlow μ) : Prop where
  registered : n'.svsPubSub.subscriptions.entries = n.svsPubSub.subscriptions.entries
  handles : ∀ edge, n'.handles edge = n.handles edge
  topicPartitions : ∀ edge,
    (n'.iceflowProducers.lookup edge).map IceflowProducer.topicPartitions =
      (n.iceflowProducers.lookup edge).map IceflowProducer.topicPartitions
  received : ∀ edge, n'.subscriptionsOf edge = n.subscriptionsOf edge

theorem SamePartitions.refl (n : IceFlow μ) : SamePartitions n n :=
  ⟨rfl, fun _ => rfl, fun _ => rfl, fun _ => rfl⟩

/-- The queries of a node: the two calls and the RPC. -/
def QueriesReadOnly (n : IceFlow μ) (consumerClock producerClock : String → Int) : Prop :=
  SamePartitions n (n.getConsumerStats consumerClock).2 ∧
    SamePartitions n (n.getProducerStats producerClock).2 ∧
    SamePartitions n (NodeInstanceService.queryStats n consumerClock producerClock).2

theorem getConsumerStats_samePartitions {n : IceFlow μ} (wf : WellFormed n)
    (clock : String → Int) :
    SamePartitions n (n.getConsumerStats clock).2 ↔
      ∀ entry ∈ n.svsPubSub.subscriptions.entries, entry.2.receiver.isConsumer = false := by
  constructor
  · intro same entry member
    rw [← same.registered, getConsumerStats_entries wf] at member
    simpa using List.of_mem_filter member
  · intro none_live
    have registered : (n.getConsumerStats clock).2.svsPubSub.subscriptions.entries =
        n.svsPubSub.subscriptions.entries := by
      rw [getConsumerStats_entries wf, List.filter_eq_self]
      intro entry member
      rw [none_live entry member]
      rfl
    have rest := getConsumerStats_node wf.live clock
    refine ⟨registered, ?_, ?_, ?_⟩
    · intro edge
      rw [rest]
      rfl
    · intro edge
      rw [rest]
    · intro edge
      unfold subscriptionsOf
      rw [registered]

/-- In a reachable state the queries are read-only exactly if no consumer of the
node has a live subscription that they could remove. -/
theorem queriesReadOnly_iff {n₀ : IceFlow μ} (constructed : n₀.Constructed) (ops : List (Op μ))
    (consumerClock producerClock : String → Int) :
    QueriesReadOnly (n₀.run ops) consumerClock producerClock ↔
      ∀ entry ∈ (n₀.run ops).svsPubSub.subscriptions.entries,
        entry.2.receiver.isConsumer = false := by
  have wf := constructed.run_wellFormed ops
  have query : (NodeInstanceService.queryStats (n₀.run ops) consumerClock producerClock).2 =
      ((n₀.run ops).getConsumerStats consumerClock).2 := rfl
  rw [QueriesReadOnly, query, getConsumerStats_samePartitions wf]
  exact ⟨fun all => all.1, fun idle => ⟨idle, SamePartitions.refl _, idle⟩⟩

end

section
open scoped Iceflow.Reference
open WordCount

theorem queriesReadOnly_iff_reader :
    QueriesReadOnly reader (fun _ => 0) (fun _ => 0) ↔
      ∀ entry ∈ reader.svsPubSub.subscriptions.entries, entry.2.receiver.isConsumer = false :=
  queriesReadOnly_iff (constructed_instanceOf dag "lines2words" "1" rfl) _ _ _

/-- After a query the reader receives nothing. -/
theorem reader_not_readOnly :
    (reader.subscriptionsOf "t2l").length = 1 ∧
      (NodeInstanceService.queryStats reader (fun _ => 0) (fun _ => 0)).2.subscriptionsOf "t2l" =
        [] ∧
      ¬ QueriesReadOnly reader (fun _ => 0) (fun _ => 0) := by
  have before : (reader.subscriptionsOf "t2l").length = 1 := by decide
  have after : (NodeInstanceService.queryStats reader (fun _ => 0) (fun _ => 0)).2.subscriptionsOf
      "t2l" = [] := by decide
  refine ⟨before, after, ?_⟩
  rintro ⟨_, _, same⟩
  rw [← same.received, after] at before
  contradiction

end
end Iceflow.IceFlow
