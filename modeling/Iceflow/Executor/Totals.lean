import Iceflow.Executor.Remote
import Iceflow.Executor.RoundTrip
import Iceflow.Node.Acknowledgements

/-! What `queryEdgeStats` returns in a run of the executor and a node that takes no step while
it serves the query. The statistics count, in 32 bits, everything that was consumed since the
node was constructed, and nothing that was produced. -/
namespace Iceflow
open IceFlow IceflowExecutor RemoteCalls

theorem ofNat_toUInt32 (n : Nat) :
    (UInt64.ofNat n).toUInt32.toUInt64 = UInt64.ofNat (n % 2 ^ 32) := by
  rw [← UInt64.toNat_inj, UInt32.toNat_toUInt64, UInt64.toNat_toUInt32, UInt64.toNat_ofNat',
    UInt64.toNat_ofNat']
  omega

section
variable [Platform] {κ μ : Type}

namespace IceFlow

def consumed (n : IceFlow μ) (edge : String) : Nat := (n.completedItems.map Prod.fst).count edge

/-- The statistics for an edge of a node that was constructed as `n₀`, if they are queried
in the state `n`. -/
def totals (n₀ n : IceFlow μ) (clocks : Clocks) (edge : String) : Option EdgeStats :=
  if edge ∈ n₀.iceflowConsumers ∨ edge ∈ n₀.iceflowProducers then
    some {
      productionStats := (n₀.iceflowProducers.lookup edge).map (fun _ =>
        ⟨0, UInt64.ofInt ((clocks.producers edge).tdiv 1000000)⟩)
      consumptionStats := (n₀.iceflowConsumers.lookup edge).map (fun consumer =>
        ⟨UInt64.ofNat (n.consumed edge % 2 ^ 32),
          wholeMilliseconds ((n.recordedTimes edge).getLast?.getD consumer.idleSince)
            (clocks.consumers edge)⟩) }
  else none

theorem Balanced.consumed_eq {n : IceFlow μ} (balanced : n.Balanced) (edge : String) :
    (n.recordedTimes edge).length = n.consumed edge := by
  rw [length_recordedTimes, balanced.recorded, consumed]

/-- What the executor makes of the answer to a query that is served after `ops`. -/
theorem Constructed.queryEdgeStats {n₀ : IceFlow μ} (constructed : n₀.Constructed)
    {ops : List (Op μ)} {clocks : Clocks}
    (clocked : n₀.Clocked (ops ++ [.call (.getConsumerStats clocks.consumers)])) :
    ∃ result, Control.queryResult
        (some (NodeInstanceService.serve (n₀.run ops) clocks .queryStats).1) = .ok result ∧
      ∀ edge, result.lookup edge = n₀.totals (n₀.run ops) clocks edge := by
  refine ⟨_, rfl, fun edge => ?_⟩
  have after : ((n₀.run ops).getConsumerStats clocks.consumers).2 =
      n₀.run (ops ++ [.call (.getConsumerStats clocks.consumers)]) := by
    rw [run_concat]
    rfl
  have consumption : (((n₀.run ops).getConsumerStats clocks.consumers).1.lookup edge).map
      sentConsumption = (n₀.iceflowConsumers.lookup edge).map (fun consumer =>
        ⟨UInt64.ofNat ((n₀.run ops).consumed edge % 2 ^ 32),
          wholeMilliseconds (((n₀.run ops).recordedTimes edge).getLast?.getD consumer.idleSince)
            (clocks.consumers edge)⟩) := by
    rw [lookup_getConsumerStats, constructed.consumptionStats clocked, Option.map_map,
      (constructed.run_balanced ops).consumed_eq]
    simp only [Function.comp_def, sentConsumption, ofNat_toUInt32]
  have production : ((((n₀.run ops).getConsumerStats clocks.consumers).2.getProducerStats
      clocks.producers).1.lookup edge).map sentProduction =
        (n₀.iceflowProducers.lookup edge).map (fun _ =>
          ⟨0, UInt64.ofInt ((clocks.producers edge).tdiv 1000000)⟩) := by
    rw [lookup_getProducerStats, after, constructed.productionStats, Option.map_map]
    rfl
  have known : (edge ∈ ((n₀.run ops).getConsumerStats clocks.consumers).1 ∨
      edge ∈ (((n₀.run ops).getConsumerStats clocks.consumers).2.getProducerStats
        clocks.producers).1) ↔ edge ∈ n₀.iceflowConsumers ∨ edge ∈ n₀.iceflowProducers := by
    have consumers := congrArg Option.isSome consumption
    have producers := congrArg Option.isSome production
    simp only [Option.isSome_map] at consumers producers
    rw [← AList.lookup_isSome, ← AList.lookup_isSome, consumers, producers, AList.lookup_isSome,
      AList.lookup_isSome]
  refine (lookup_received ((n₀.run ops).getConsumerStats clocks.consumers).1
    (((n₀.run ops).getConsumerStats clocks.consumers).2.getProducerStats clocks.producers).1
      edge).trans ?_
  rw [consumption, production]
  exact if_congr known rfl rfl

end IceFlow

namespace Control
variable [DecidableEq κ]

/-- A query that gets an answer returns the statistics of the node when it served the query,
which was between the call and its return. -/
theorem run_totals {n₀ : IceFlow μ} (constructed : n₀.Constructed) {steps : List (Step κ μ)}
    (clocked : n₀.Clocked (operations n₀ steps)) {t : κ} {answer : NodeInstance.Response}
    (returned : (t, .queryStats, some answer) ∈ (run n₀ steps).session.returned) :
    ∃ first before index clocks after rest, remoteSteps n₀ steps =
        first ++ .call t .queryStats ::
          (before ++ .serve index clocks :: (after ++ .finish t :: rest)) ∧
      ∃ result, queryResult (some answer) = .ok result ∧ ∀ edge, result.lookup edge =
        n₀.totals (RemoteCalls.run NodeInstanceService.server (.initial n₀)
          (first ++ .call t .queryStats :: before)).state clocks edge := by
  obtain ⟨first, before, index, clocks, after, rest, split, answered⟩ :=
    (run_explained n₀ (remoteSteps n₀ steps)).returned t .queryStats answer
      (session_run n₀ steps ▸ returned)
  refine ⟨first, before, index, clocks, after, rest, split, ?_⟩
  -- The node has done the operations of the steps before the request was served.
  let served := effects NodeInstanceService.server (.initial n₀)
    (first ++ .call t .queryStats :: before)
  have state : (RemoteCalls.run NodeInstanceService.server (.initial n₀)
      (first ++ .call t .queryStats :: before)).state =
        n₀.run (served.flatMap NodeInstanceService.operations) := by
    rw [state_run, NodeInstanceService.run_operations]
    rfl
  have clocked : n₀.Clocked (served.flatMap NodeInstanceService.operations ++
      [.call (.getConsumerStats clocks.consumers)]) := by
    obtain ⟨later, happened⟩ := effects_served answered.found clocks (after ++ .finish t :: rest)
    rw [List.append_assoc, List.cons_append] at happened
    rw [operations, split, happened, List.flatMap_append, List.flatMap_cons,
      NodeInstanceService.operations, List.cons_append, List.append_cons] at clocked
    exact clocked.init
  obtain ⟨result, decoded, totals⟩ := constructed.queryEdgeStats clocked
  rw [← state] at decoded totals
  rw [← answered.served]
  exact ⟨result, decoded, totals⟩

end Control
end

section
open scoped Iceflow.Reference
open WordCount
namespace Control

/-- A line is split between the call of `queryEdgeStats` and the answer. -/
def querying : List (Step Unit Unit) :=
  [.runGrpcClient, .node (.call (.registerProsumerCallback "t2l" (splitLine "l2w"))),
    .node (.call (.repartitionConsumer "t2l" [0])), .queryEdgeStats (),
    .node (.deliver (Reference.handle 2) line 3000000),
    .serve 0 ⟨fun _ => 9000000, fun _ => 9000000⟩, .finish ()]

theorem clocked_querying : firstSplitter.Clocked (operations firstSplitter querying) := by
  intro edge consumer found
  have known : edge ∈ firstSplitter.iceflowConsumers := StringMap.mem_of_lookup found
  have only : edge = "t2l" := by simpa using show edge ∈ ["t2l"] from known
  subst only
  cases found
  decide

/-- The item is counted. -/
theorem run_totals_querying : ∃ first before index clocks after rest,
    remoteSteps firstSplitter querying = first ++ .call () .queryStats ::
        (before ++ .serve index clocks :: (after ++ .finish () :: rest)) ∧
      ∃ result, queryResult (some (.queryStats .ok
          ⟨[⟨"l2w", 0, 9⟩], [⟨"t2l", 1, 6⟩]⟩)) = .ok result ∧
        ∀ edge, result.lookup edge = firstSplitter.totals
          (RemoteCalls.run NodeInstanceService.server (.initial firstSplitter)
            (first ++ .call () .queryStats :: before)).state clocks edge := by
  have returned : ((), .queryStats, some (.queryStats .ok ⟨[⟨"l2w", 0, 9⟩], [⟨"t2l", 1, 6⟩]⟩)) ∈
      (run firstSplitter querying).session.returned := List.mem_singleton.mpr rfl
  exact run_totals constructed_firstSplitter clocked_querying returned

end Control
end
end Iceflow
