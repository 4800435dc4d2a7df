import Iceflow.Node.Repartitioning
import Iceflow.WordCount

/-! The two ends of the edges of a DAG. Producers follow the node's own downstream
list. Consumers follow a search that takes one edge of each node, so of parallel
edges only the first is certain to have a consumer. -/
namespace Iceflow

section
variable [Platform] {μ : Type}

namespace IceFlow

/-- Both ends of every edge at a node that was constructed from a DAG. -/
structure Wired (dagParser : DAGParser) (n : IceFlow μ) : Prop where
  consumers : ∀ id, id ∈ n.iceflowConsumers ↔
    ∃ y ∈ dagParser.nodes, ∃ edge ∈ y.downstream, edge.id = id ∧ edge.target = n.node.task
  producers : ∀ id, id ∈ n.iceflowProducers ↔ ∃ edge ∈ n.node.downstream, edge.id = id
  topics : ∀ y ∈ dagParser.nodes, ∀ edge ∈ y.downstream, edge.target = n.node.task →
    ∃ id consumer, n.iceflowConsumers.lookup id = some consumer ∧
      consumer.subTopic = dagParser.applicationName ++ "/" ++ edge.id ∧
      ∀ otherName environment (m : IceFlow μ), construct dagParser otherName environment = .ok m →
        m.node = y → ∃ producer, m.iceflowProducers.lookup edge.id = some producer ∧
          producer.pubTopic = consumer.subTopic

variable {dagParser : DAGParser} {nodeName : String} {now : String → Int} {n : IceFlow μ}

theorem Fresh.mem_producers (fresh : Fresh dagParser nodeName now n) (id : String) :
    id ∈ n.iceflowProducers ↔ ∃ edge ∈ n.node.downstream, edge.id = id := by
  rw [fresh.producers.members]
  simp

/-- A consumer is held for the first edge into the task that a node has. -/
theorem Fresh.mem_consumers (fresh : Fresh dagParser nodeName now n) (id : String) :
    id ∈ n.iceflowConsumers ↔ ∃ y ∈ dagParser.nodes, ∃ first,
      y.downstream.find? (fun edge => edge.target = n.node.task) = some first ∧ first.id = id := by
  rw [fresh.consumers, mem_constructConsumers]
  constructor
  · rintro ⟨edge, member, named⟩
    obtain ⟨⟨y, first⟩, found, rfl⟩ := List.mem_map.mp member
    obtain ⟨present, search⟩ := DAGParser.mem_findUpstreamEdges.mp found
    exact ⟨y, present, first, search, named⟩
  · rintro ⟨y, present, first, search, named⟩
    exact ⟨first, List.mem_map.mpr ⟨(y, first),
      DAGParser.mem_findUpstreamEdges.mpr ⟨present, search⟩, rfl⟩, named⟩

theorem Fresh.producer_of_edge (fresh : Fresh dagParser nodeName now n) {edge : Edge}
    (listed : edge ∈ n.node.downstream) :
    ∃ producer, n.iceflowProducers.lookup edge.id = some producer ∧
      producer.pubTopic = dagParser.applicationName ++ "/" ++ edge.id := by
  have present := (fresh.mem_producers edge.id).mpr ⟨edge, listed, rfl⟩
  obtain ⟨producer, found⟩ := StringMap.mem_iff_lookup.mp present
  refine ⟨producer, found, ?_⟩
  rw [(fresh.wellFormed.producer_fixed edge.id producer found).1, topicOf, fresh.syncPrefix]

theorem Fresh.consumer_of_mem (fresh : Fresh dagParser nodeName now n) {id : String}
    (present : id ∈ n.iceflowConsumers) :
    ∃ consumer, n.iceflowConsumers.lookup id = some consumer ∧
      consumer.subTopic = dagParser.applicationName ++ "/" ++ id := by
  obtain ⟨consumer, found⟩ := StringMap.mem_iff_lookup.mp present
  refine ⟨consumer, found, ?_⟩
  rw [(fresh.wellFormed.consumer_fixed id consumer found).1, topicOf, fresh.syncPrefix]

/-- A constructed node is wired at both ends exactly if every edge into its task
has the id of the first such edge of some node. -/
theorem wired_iff {environment : Environment μ}
    (constructed : construct dagParser nodeName environment = .ok n) :
    Wired dagParser n ↔
      ∀ y ∈ dagParser.nodes, ∀ edge ∈ y.downstream, edge.target = n.node.task →
        ∃ z ∈ dagParser.nodes, ∃ first,
          z.downstream.find? (fun e => e.target = n.node.task) = some first ∧
            first.id = edge.id := by
  have fresh := construct_fresh constructed
  constructor
  · intro wired y member edge listed into
    exact (fresh.mem_consumers edge.id).mp
      ((wired.consumers edge.id).mpr ⟨y, member, edge, listed, rfl, into⟩)
  · intro firsts
    constructor
    case producers => exact fresh.mem_producers
    case consumers =>
      intro id
      rw [fresh.mem_consumers]
      constructor
      · rintro ⟨z, member, first, search, named⟩
        exact ⟨z, member, first, List.mem_of_find?_eq_some search, named,
          by simpa using List.find?_some search⟩
      · rintro ⟨y, member, edge, listed, rfl, into⟩
        exact firsts y member edge listed into
    case topics =>
      intro y member edge listed into
      have present := (fresh.mem_consumers edge.id).mpr (firsts y member edge listed into)
      obtain ⟨consumer, found, subTopic⟩ := fresh.consumer_of_mem present
      refine ⟨edge.id, consumer, found, subTopic, ?_⟩
      rintro otherName otherEnvironment m other rfl
      obtain ⟨producer, found', pubTopic⟩ := (construct_fresh other).producer_of_edge listed
      exact ⟨producer, found', pubTopic.trans subTopic.symm⟩

end IceFlow
end

section
open scoped Iceflow.Reference
open IceFlow WordCount

theorem wired_iff_wordcount :
    Wired dag (instanceOf dag "wordcount" "1" rfl) ↔
      ∀ y ∈ dag.nodes, ∀ edge ∈ y.downstream,
        edge.target = (instanceOf dag "wordcount" "1" rfl).node.task →
        ∃ z ∈ dag.nodes, ∃ first,
          z.downstream.find? (fun e => e.target = (instanceOf dag "wordcount" "1" rfl).node.task) =
            some first ∧ first.id = edge.id :=
  wired_iff (construct_instanceOf dag "wordcount" "1" rfl)

/-- Word count with a second edge from text2lines to lines2words. -/
def parallelDag : DAGParser :=
  { dag with nodes := [
      { text2lines with downstream := [⟨"t2l", "2", 3, []⟩, ⟨"headers", "2", 1, []⟩] },
      lines2words, wordcount] }

/-- The second of two parallel edges has a producer but no consumer. -/
theorem parallel_edge_not_wired :
    "headers" ∈ (instanceOf parallelDag "text2lines" "1" rfl).iceflowProducers ∧
      "headers" ∉ (instanceOf parallelDag "lines2words" "1" rfl).iceflowConsumers ∧
      ¬ Wired parallelDag (instanceOf parallelDag "lines2words" "1" rfl) := by
  have missing : "headers" ∉ (instanceOf parallelDag "lines2words" "1" rfl).iceflowConsumers := by
    decide
  refine ⟨by decide, missing, fun wired => missing ?_⟩
  rw [wired.consumers]
  exact ⟨_, List.mem_cons_self, ⟨"headers", "2", 1, []⟩, by simp, rfl, by decide⟩

end
end Iceflow
