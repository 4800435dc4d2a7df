import Iceflow.Foundation.Dataflow
import Iceflow.Network.ExactlyOnce
import Iceflow.Node.Emissions
import Iceflow.Node.Wiring
import Mathlib.Algebra.Order.BigOperators.Group.List

/-! Applications: processes for the nodes of one DAG, in any number. Where the pub/sub delivers
exactly once, what is pushed to the edges is the dataflow that the DAG and the callbacks
describe, whatever the order of steps, the partitions that are drawn and the number of
instances. -/
namespace Iceflow

namespace DAGParser

def edges (dagParser : DAGParser) : List Edge := dagParser.nodes.flatMap Node.downstream

def edgeIds (dagParser : DAGParser) : Set String := {id | ∃ edge ∈ dagParser.edges, edge.id = id}

def feeds (dagParser : DAGParser) (edge : Edge) (out : String) : Bool :=
  dagParser.nodes.any (fun node =>
    edge.target = node.task && node.downstream.any (fun next => next.id = out))

def inputs (dagParser : DAGParser) (out : String) : List String :=
  (dagParser.edges.filter (fun edge => dagParser.feeds edge out)).map Edge.id

theorem mem_edges {dagParser : DAGParser} {edge : Edge} :
    edge ∈ dagParser.edges ↔ ∃ node ∈ dagParser.nodes, edge ∈ node.downstream :=
  List.mem_flatMap

theorem feeds_iff {dagParser : DAGParser} {edge : Edge} {out : String} :
    dagParser.feeds edge out = true ↔ ∃ node ∈ dagParser.nodes, edge.target = node.task ∧
      ∃ next ∈ node.downstream, next.id = out := by
  simp [feeds]

/-- Every edge has an id of its own, and tasks can be put in an order that all edges follow. -/
structure Acyclic (dagParser : DAGParser) : Prop where
  ids : (dagParser.edges.map Edge.id).Nodup
  ordered : ∃ rank : String → Nat, ∀ node ∈ dagParser.nodes, ∀ edge ∈ node.downstream,
    rank node.task < rank edge.target

/-- The dataflow of the DAG with what callbacks push for an item and what is put in. -/
def graph (dagParser : DAGParser) (f : String → String → Bytes → List Bytes)
    (source : String → Multiset Bytes) : Dataflow.Graph String Bytes where
  inputs out := dagParser.inputs out
  source := source
  output edge out data := f edge out data

theorem Acyclic.edge_eq {dagParser : DAGParser} (acyclic : Acyclic dagParser) {d e : Edge}
    (first : d ∈ dagParser.edges) (second : e ∈ dagParser.edges) (same : d.id = e.id) : d = e :=
  List.inj_on_of_nodup_map acyclic.ids first second same

theorem mem_inputs {dagParser : DAGParser} {edge : Edge} (listed : edge ∈ dagParser.edges)
    (feeds : dagParser.feeds edge out = true) : edge.id ∈ dagParser.inputs out :=
  List.mem_map_of_mem (List.mem_filter.mpr ⟨listed, feeds⟩)

theorem closed_inputs {dagParser : DAGParser} {f : String → String → Bytes → List Bytes}
    {source : String → Multiset Bytes} :
    ∀ out ∈ dagParser.edgeIds, ∀ d ∈ (dagParser.graph f source).inputs out,
      d ∈ dagParser.edgeIds := by
  intro out _ d input
  obtain ⟨edge, member, same⟩ := List.mem_map.mp (Multiset.mem_coe.mp input)
  exact ⟨edge, (List.mem_filter.mp member).1, same⟩

theorem Acyclic.graph {dagParser : DAGParser} (acyclic : Acyclic dagParser)
    (f : String → String → Bytes → List Bytes) (source : String → Multiset Bytes) :
    (dagParser.graph f source).Acyclic := by
  obtain ⟨rank, ordered⟩ := acyclic.ordered
  -- By induction on a bound of the ranks of the nodes at which the edge begins.
  have accessible (n : Nat) : ∀ out, (∀ node ∈ dagParser.nodes,
      (∃ edge ∈ node.downstream, edge.id = out) → rank node.task < n) →
        Acc (fun d e => d ∈ (dagParser.graph f source).inputs e) out := by
    induction n with
    | zero =>
      intro out below
      refine ⟨_, fun d input => ?_⟩
      obtain ⟨edge, member, rfl⟩ := List.mem_map.mp (Multiset.mem_coe.mp input)
      obtain ⟨node, present, _, next⟩ := feeds_iff.mp (List.mem_filter.mp member).2
      exact absurd (below node present next) (Nat.not_lt_zero _)
    | succ n ih =>
      intro out below
      refine ⟨_, fun d input => ih d ?_⟩
      obtain ⟨edge, member, rfl⟩ := List.mem_map.mp (Multiset.mem_coe.mp input)
      obtain ⟨listed, feeds⟩ := List.mem_filter.mp member
      obtain ⟨node, present, into, next⟩ := feeds_iff.mp feeds
      rintro first present' ⟨edge', begins, same⟩
      have listed' : edge' ∈ dagParser.edges := mem_edges.mpr ⟨first, present', begins⟩
      obtain rfl := acyclic.edge_eq listed' listed same
      have later := ordered first present' edge' begins
      have bound := below node present next
      rw [into] at later
      omega
  constructor
  intro out
  apply accessible ((dagParser.nodes.map (fun node => rank node.task)).sum + 1)
  intro node present _
  exact Nat.lt_succ_of_le (List.le_sum_of_mem (List.mem_map_of_mem present))

end DAGParser

section
open Tiling
variable [Platform] {ι μ : Type} [DecidableEq ι]

namespace Network
open IceFlow

/-- Processes for nodes of the DAG. Each consumer gets its callback before its partitions, the
partitions of an edge are those that its consumers share, and what the callback of an edge
pushes depends on the item alone. -/
structure Application (dagParser : DAGParser) (f : String → String → Bytes → List Bytes)
    (start : ι → IceFlow μ) (actions : List (Action ι μ)) : Prop where
  acyclic : dagParser.Acyclic
  separated : ∀ d ∈ dagParser.edges, ∀ e ∈ dagParser.edges, d.id ≠ e.id →
    Separated dagParser.applicationName d.id e.id
  built : ∀ i, ∃ nodeName environment,
    IceFlow.construct dagParser nodeName environment = .ok (start i)
  prepared : ∀ edge ∈ dagParser.edges, ∀ i, Prepared edge.id (callsOf i actions)
  known : ∀ i id partitions, .repartitionConsumer id partitions ∈ callsOf i actions →
    id ∈ (start i).iceflowConsumers
  tiles : ∀ edge ∈ dagParser.edges, Tiles (fun p => p < edge.maxPartitions)
    (fun i => lastPartitions edge.id ((callsOf i actions).map Op.call))
  emits : ∀ i, ∀ c ∈ callsOf i actions, ∀ edge callback,
    (Op.call c).registers = some (edge, callback) →
      ∀ out, (start i).Emits out (f edge out) callback

def flow (start : ι → IceFlow μ) (actions : List (Action ι μ)) (all : List ι) (edge : String) :
    Multiset Bytes :=
  (all : Multiset ι).bind (fun i => (run start actions i).pushedData edge)

def sources (start : ι → IceFlow μ) (actions : List (Action ι μ)) (all : List ι)
    (edge : String) : Multiset Bytes :=
  (all : Multiset ι).bind (fun i =>
    (callsOf i actions).filterMap (fun c => (start i).direct edge (.call c)))

namespace Application
variable {dagParser : DAGParser} {f : String → String → Bytes → List Bytes}
  {start : ι → IceFlow μ} {actions : List (Action ι μ)}

theorem constructed (app : Application dagParser f start actions) (i : ι) :
    (start i).Constructed := by
  obtain ⟨nodeName, environment, built⟩ := app.built i
  exact ⟨dagParser, nodeName, environment, built⟩

theorem syncPrefix (app : Application dagParser f start actions) (i : ι) :
    (start i).syncPrefix = dagParser.applicationName := by
  obtain ⟨nodeName, environment, built⟩ := app.built i
  exact (construct_fresh built).syncPrefix

theorem node_mem (app : Application dagParser f start actions) (i : ι) :
    (start i).node ∈ dagParser.nodes := by
  obtain ⟨nodeName, environment, built⟩ := app.built i
  have found := (construct_fresh built).node
  unfold DAGParser.findNodeByName at found
  split at found
  · rename_i node search
    exact Except.ok.inj found ▸ List.mem_of_find?_eq_some search
  · cases found

theorem mem_producers (app : Application dagParser f start actions) (i : ι) (id : String) :
    id ∈ (start i).iceflowProducers ↔ ∃ edge ∈ (start i).node.downstream, edge.id = id := by
  obtain ⟨nodeName, environment, built⟩ := app.built i
  exact (construct_fresh built).mem_producers id

theorem edge_of_producer (app : Application dagParser f start actions) {i : ι} {id : String}
    {producer : IceflowProducer} (found : (start i).iceflowProducers.lookup id = some producer) :
    ∃ edge ∈ (start i).node.downstream, edge.id = id ∧
      producer.numberOfPartitions = edge.maxPartitions := by
  obtain ⟨nodeName, environment, built⟩ := app.built i
  rcases (construct_fresh built).producers.built id producer found with none | made
  · simp at none
  · obtain ⟨edge, member, named, identity⟩ := made
    exact ⟨edge, member, named, congrArg (fun identity => identity.2.2.2.1) identity⟩

theorem edge_of_consumer (app : Application dagParser f start actions) {i : ι} {id : String}
    (consumes : id ∈ (start i).iceflowConsumers) :
    ∃ edge ∈ dagParser.edges, edge.id = id ∧ edge.target = (start i).node.task := by
  obtain ⟨nodeName, environment, built⟩ := app.built i
  obtain ⟨node, present, edge, search, named⟩ :=
    ((construct_fresh built).mem_consumers id).mp consumes
  exact ⟨edge, DAGParser.mem_edges.mpr ⟨node, present, List.mem_of_find?_eq_some search⟩, named,
    by simpa using List.find?_some search⟩

theorem mem_edges (app : Application dagParser f start actions) {i : ι} {edge : Edge}
    (member : edge ∈ (start i).node.downstream) : edge ∈ dagParser.edges :=
  DAGParser.mem_edges.mpr ⟨_, app.node_mem i, member⟩

theorem feeds (app : Application dagParser f start actions) {i : ι} {edge : Edge}
    (into : edge.target = (start i).node.task) {out : String}
    (produces : out ∈ (start i).iceflowProducers) : dagParser.feeds edge out = true :=
  DAGParser.feeds_iff.mpr ⟨_, app.node_mem i, into, (app.mem_producers i out).mp produces⟩

theorem exchange (app : Application dagParser f start actions) {edge : Edge}
    (listed : edge ∈ dagParser.edges) : Exchange edge.id start actions := by
  apply Exchange.of_calls app.constructed
  case application => exact fun i j => (app.syncPrefix i).trans (app.syncPrefix j).symm
  case prepared => exact app.prepared edge listed
  case known => exact fun i => app.known i edge.id
  case apart =>
    intro i consumes produces
    obtain ⟨edge', listed', same, into⟩ := app.edge_of_consumer consumes
    obtain ⟨next, begins, same'⟩ := (app.mem_producers i edge.id).mp produces
    obtain rfl := app.acyclic.edge_eq listed' (app.mem_edges begins) (same.trans same'.symm)
    obtain ⟨rank, ordered⟩ := app.acyclic.ordered
    have later := ordered _ (app.node_mem i) edge' begins
    rw [into] at later
    exact lt_irrefl _ later
  case separated =>
    intro i e other used
    have named : ∃ edge ∈ dagParser.edges, edge.id = e := by
      rcases used with produces | consumes
      · obtain ⟨next, begins, same⟩ := (app.mem_producers i e).mp produces
        exact ⟨next, app.mem_edges begins, same⟩
      · obtain ⟨edge', listed', same, _⟩ := app.edge_of_consumer consumes
        exact ⟨edge', listed', same⟩
    obtain ⟨edge', listed', rfl⟩ := named
    exact app.syncPrefix i ▸ app.separated edge listed edge' listed' (Ne.symm other)
  case tiles =>
    have tiles := app.tiles edge listed
    refine ⟨tiles.nodup, tiles.disjoint, ?_⟩
    rintro p ⟨j, producer, found, below⟩
    obtain ⟨edge', begins, same, number⟩ := app.edge_of_producer found
    obtain rfl := app.acyclic.edge_eq (app.mem_edges begins) listed same
    exact tiles.covers p (number ▸ below)

theorem data_received (app : Application dagParser f start actions)
    (once : ExactlyOnce start actions) {all : List ι} (nodup : all.Nodup)
    (complete : ∀ i, i ∈ all) {edge : Edge} (listed : edge ∈ dagParser.edges) :
    ((all : Multiset ι).bind (fun i => ((run start actions i).invokedItems edge.id :
      Multiset SubscriptionData))).map SubscriptionData.data = flow start actions all edge.id := by
  have received := (app.exchange listed).received_perm once nodup complete
  rw [← Multiset.coe_eq_coe, ← Multiset.coe_bind, ← Multiset.coe_bind] at received
  rw [received, flow, Multiset.map_bind]
  simp only [Multiset.map_coe, data_pushedItems]

theorem pushed (app : Application dagParser f start actions) (i : ι) (out : String) :
    ((run start actions i).pushedData out : Multiset Bytes) =
      ((callsOf i actions).filterMap (fun c => (start i).direct out (.call c)) : Multiset Bytes) +
        ((run start actions i).invocations : Multiset (String × SubscriptionData)).bind
          (fun call => f call.1 out call.2.data) := by
  have registers : ∀ op ∈ operationsOf start actions i, ∀ edge callback,
      op.registers = some (edge, callback) → (start i).Emits out (f edge out) callback := by
    intro op member edge callback registered
    cases op with
    | deliver handle item now => cases registered
    | call c =>
      refine app.emits i c ?_ edge callback registered out
      rw [← called_operationsOf start actions i]
      exact List.mem_filterMap.mpr ⟨_, member, rfl⟩
  have emitted := (app.constructed i).pushedData_emitted registers
  have calls : (operationsOf start actions i).filterMap ((start i).direct out) =
      (callsOf i actions).filterMap (fun c => (start i).direct out (.call c)) := by
    rw [← called_operationsOf start actions i, List.filterMap_filterMap]
    apply List.filterMap_congr
    rintro (c | _) _
    · rfl
    · exact ite_self _
  rw [← run_node, calls] at emitted
  rw [Multiset.coe_bind, Multiset.coe_add]
  exact Multiset.coe_eq_coe.mpr emitted

/-- A node calls callbacks for edges that end at it, and they push only to edges after these. -/
theorem invoked (app : Application dagParser f start actions) {i : ι}
    {call : String × SubscriptionData} (invoked : call ∈ (run start actions i).invocations)
    {out : String} (outside : call.1 ∉ dagParser.inputs out) : f call.1 out call.2.data = [] := by
  rw [run_node] at invoked
  obtain ⟨consumes, op, member, callback, registered⟩ :=
    (app.constructed i).invoked_registered invoked
  obtain ⟨edge, listed, same, into⟩ := app.edge_of_consumer consumes
  have unknown : out ∉ (start i).iceflowProducers := by
    intro produces
    exact outside (same ▸ DAGParser.mem_inputs listed (app.feeds into produces))
  cases op with
  | deliver handle item now => cases registered
  | call c =>
    have called : c ∈ callsOf i actions := by
      rw [← called_operationsOf start actions i]
      exact List.mem_filterMap.mpr ⟨_, member, rfl⟩
    exact (app.emits i c called call.1 callback registered out).eq_nil unknown (start i).memory _

theorem solves (app : Application dagParser f start actions) (once : ExactlyOnce start actions)
    {all : List ι} (nodup : all.Nodup) (complete : ∀ i, i ∈ all) :
    (dagParser.graph f (sources start actions all)).Solves dagParser.edgeIds
      (flow start actions all) := by
  intro out _
  have distinct : (dagParser.inputs out : Multiset String).Nodup :=
    Multiset.coe_nodup.mpr
      (app.acyclic.ids.sublist ((List.filter_sublist (l := dagParser.edges)).map Edge.id))
  have sorted (i : ι) :
      ((run start actions i).invocations : Multiset (String × SubscriptionData)).bind
        (fun call => (f call.1 out call.2.data : Multiset Bytes)) =
      (dagParser.inputs out : Multiset String).bind (fun edge =>
        ((run start actions i).invokedItems edge : Multiset SubscriptionData).bind
          (fun item => (f edge out item.data : Multiset Bytes))) := by
    rw [Dataflow.bind_keys distinct Prod.fst]
    · exact Multiset.bind_congr (fun edge _ => bind_invocations _ edge
        (fun edge item => (f edge out item.data : Multiset Bytes)))
    · intro call member outside
      rw [app.invoked (Multiset.mem_coe.mp member)
        (fun inside => outside (Multiset.mem_coe.mpr inside))]
      rfl
  calc flow start actions all out
    _ = (all : Multiset ι).bind (fun i =>
          ((callsOf i actions).filterMap (fun c => (start i).direct out (.call c)) :
            Multiset Bytes) +
          (dagParser.inputs out : Multiset String).bind (fun edge =>
            ((run start actions i).invokedItems edge : Multiset SubscriptionData).bind
              (fun item => (f edge out item.data : Multiset Bytes)))) :=
        Multiset.bind_congr (fun i _ => by rw [app.pushed, sorted])
    _ = sources start actions all out + (dagParser.inputs out : Multiset String).bind (fun edge =>
          (flow start actions all edge).bind (fun data => (f edge out data : Multiset Bytes))) := by
        rw [Multiset.bind_add, sources, Multiset.bind_bind]
        congr 1
        apply Multiset.bind_congr
        intro id member
        obtain ⟨edge, inside, rfl⟩ := List.mem_map.mp (Multiset.mem_coe.mp member)
        rw [← app.data_received once nodup complete (List.mem_filter.mp inside).1,
          Multiset.bind_map, Multiset.bind_assoc]

/-- What is pushed to an edge of the DAG is what the dataflow has there. -/
theorem flow_eq_denote (app : Application dagParser f start actions)
    (once : ExactlyOnce start actions) {all : List ι} (nodup : all.Nodup)
    (complete : ∀ i, i ∈ all) {edge : Edge} (listed : edge ∈ dagParser.edges) :
    flow start actions all edge.id =
      Dataflow.Graph.denote (app.acyclic.graph f (sources start actions all)) edge.id := by
  have solves := app.solves once nodup complete
  rw [Dataflow.Graph.solves_iff (app.acyclic.graph f _) DAGParser.closed_inputs] at solves
  exact solves edge.id ⟨edge, listed, rfl⟩

/-- Two deployments of the same application that put in the same data, on any nodes and in any
order, push the same data to every edge and call its callbacks with the same data. -/
theorem schedule_independent (app : Application dagParser f start actions)
    (once : ExactlyOnce start actions) {all : List ι} (nodup : all.Nodup)
    (complete : ∀ i, i ∈ all) {ι' μ' : Type} [DecidableEq ι'] {start' : ι' → IceFlow μ'}
    {actions' : List (Action ι' μ')} (app' : Application dagParser f start' actions')
    (once' : ExactlyOnce start' actions') {all' : List ι'} (nodup' : all'.Nodup)
    (complete' : ∀ i, i ∈ all')
    (same : ∀ edge ∈ dagParser.edges,
      sources start actions all edge.id = sources start' actions' all' edge.id)
    {edge : Edge} (listed : edge ∈ dagParser.edges) :
    flow start actions all edge.id = flow start' actions' all' edge.id ∧
      ((all.flatMap (fun i => (run start actions i).invokedItems edge.id)).map
        SubscriptionData.data).Perm
          ((all'.flatMap (fun i => (run start' actions' i).invokedItems edge.id)).map
            SubscriptionData.data) := by
  have flows : flow start actions all edge.id = flow start' actions' all' edge.id := by
    have solves := app.solves once nodup complete
    have solves' : (dagParser.graph f (sources start actions all)).Solves dagParser.edgeIds
        (flow start' actions' all') := by
      rintro out ⟨next, inside, rfl⟩
      rw [app'.solves once' nodup' complete' next.id ⟨next, inside, rfl⟩]
      congr 1
      exact (same next inside).symm
    rw [Dataflow.Graph.solves_iff (app.acyclic.graph f _) DAGParser.closed_inputs] at solves solves'
    rw [solves edge.id ⟨edge, listed, rfl⟩, solves' edge.id ⟨edge, listed, rfl⟩]
  refine ⟨flows, ?_⟩
  rw [← app.data_received once nodup complete listed,
    ← app'.data_received once' nodup' complete' listed] at flows
  rw [← Multiset.coe_eq_coe, ← Multiset.map_coe, ← Multiset.map_coe, ← Multiset.coe_bind,
    ← Multiset.coe_bind]
  exact flows

end Application
end Network
end
end Iceflow
