import Iceflow.Executor.Remote
import Iceflow.NodeInstanceService.Repartition
import Iceflow.Node.Received
import Iceflow.Node.Serving
import Iceflow.WordCount

/-! How long requests of the executor act on a node. What a Repartition request leaves a
consumer with lasts until the node repartitions the consumer again or queries the statistics
of its consumers; after a QueryStats request a consumer is given nothing until it is
repartitioned. -/
namespace Iceflow

section
variable [Platform] {κ μ : Type}

namespace IceFlow

theorem topicOf_perform {n : IceFlow μ} (wf : WellFormed n) (op : Op μ) (edge : String) :
    (op.perform n).topicOf edge = n.topicOf edge := by
  cases framed : op.framed with
  | true => exact (Op.frame n framed).topicOf edge
  | false =>
    obtain ⟨subscriptions, consumers, performed, _⟩ := perform_unframed wf framed
    rw [performed]
    rfl

theorem serves_perform {n : IceFlow μ} (wf : WellFormed n) {op : Op μ} {edge : String}
    (other : op.repartitionsConsumer edge = false) (quiet : op.queriesConsumers = false)
    {lower upper : UInt32} :
    Serves (op.perform n) edge lower upper ↔ Serves n edge lower upper := by
  have subscriptions : (op.perform n).subscriptionsOf edge = n.subscriptionsOf edge := by
    simpa [quiet] using subscriptionsOf_perform wf other
  have known := mem_consumers_perform wf op edge
  have topic := topicOf_perform wf op edge
  constructor
  · rintro ⟨consumer, once, others⟩
    simp only [timesSubscribed, subscriptions, topic] at once others
    exact ⟨known.mp consumer, once, others⟩
  · rintro ⟨consumer, once, others⟩
    refine ⟨known.mpr consumer, ?_, ?_⟩
    · simpa only [timesSubscribed, subscriptions, topic] using once
    · simpa only [subscriptions, topic] using others

end IceFlow

namespace Control
open IceFlow RemoteCalls

def stepOperations (c : Control κ μ) (step : Step κ μ) : List (Op μ) :=
  ((c.remote step).bind c.session.effect).toList.flatMap NodeInstanceService.operations

variable [DecidableEq κ]

theorem node_perform (c : Control κ μ) (step : Step κ μ) :
    (c.perform step).session.state = c.session.state.run (c.stepOperations step) := by
  simp only [perform, stepOperations]
  cases c.remote step with
  | none => rfl
  | some s =>
    simp only [Option.bind_some]
    rw [state_perform, NodeInstanceService.run_operations]

theorem run_wellFormed {n₀ : IceFlow μ} (constructed : n₀.Constructed)
    (steps : List (Step κ μ)) : WellFormed (run n₀ steps).session.state := by
  rw [node_run]
  exact constructed.run_wellFormed _

theorem run_keeps {P : IceFlow μ → Prop} {Q : Op μ → Prop} {c : Control κ μ}
    (wf : WellFormed c.session.state)
    (keeps : ∀ n op, WellFormed n → Q op → P n → P (Op.perform n op)) {rest : List (Step κ μ)}
    (allowed : ∀ x ∈ Transition.steps perform c rest, ∀ op ∈ x.1.stepOperations x.2, Q op)
    (holds : P c.session.state) : P (Transition.run perform c rest).session.state := by
  have both : WellFormed (Transition.run perform c rest).session.state ∧
      P (Transition.run perform c rest).session.state := by
    apply Transition.run_preserves (P := fun c : Control κ μ =>
      WellFormed c.session.state ∧ P c.session.state)
      (Q := fun c step => ∀ op ∈ c.stepOperations step, Q op) _ ⟨wf, holds⟩ allowed
    intro c step inv admitted
    rw [node_perform]
    exact Transition.run_preserves_labels (P := fun n => WellFormed n ∧ P n)
      (fun n op member inv =>
        ⟨wellFormed_perform inv.1 op, keeps n op inv.1 (admitted op member) inv.2⟩) inv
  exact both.2

theorem serve_perform {c : Control κ μ} {index : Nat} {clocks : Clocks} {client : Option κ}
    {request : NodeInstance.Request} (found : c.session.inFlight[index]? = some (client, request)) :
    (c.perform (.serve index clocks)).session.state =
      (NodeInstanceService.serve c.session.state clocks request).2 := by
  simp only [perform, remote, Session.perform, found]
  cases client <;> rfl

theorem run_serve (n₀ : IceFlow μ) (first rest : List (Step κ μ)) (step : Step κ μ) :
    run n₀ (first ++ step :: rest) =
      Transition.run perform ((run n₀ first).perform step) rest := by
  rw [run, Transition.run_append, Transition.run_cons]

/-- As long as the node does not repartition the consumer or query the statistics of
consumers, the consumer that a Repartition request named serves what it asked for, if the
bounds were in order. -/
theorem repartition_lasts {n₀ : IceFlow μ} (constructed : n₀.Constructed)
    {first rest : List (Step κ μ)} {index : Nat} {client : Option κ}
    {request : RepartitionRequest}
    (found : (run n₀ first).session.inFlight[index]? = some (client, .repartition request))
    (known : request.edgeName ∈ n₀.iceflowConsumers) (clocks : Clocks)
    (kept : ∀ x ∈ Transition.steps perform ((run n₀ first).perform (.serve index clocks)) rest,
      ∀ op ∈ x.1.stepOperations x.2,
        op.repartitionsConsumer request.edgeName = false ∧ op.queriesConsumers = false) :
    Serves (run n₀ (first ++ .serve index clocks :: rest)).session.state request.edgeName
        request.lowerPartitionBound request.upperPartitionBound ↔
      if (Platform.nameOfUri (n₀.topicOf request.edgeName)).isSome
      then request.lowerPartitionBound ≤ request.upperPartitionBound
      else request.upperPartitionBound ≤ request.lowerPartitionBound := by
  have wf := run_wellFormed constructed first
  have topic : (run n₀ first).session.state.topicOf request.edgeName =
      n₀.topicOf request.edgeName := by
    rw [node_run]
    exact constructed.run_invariant (P := fun n => n.topicOf request.edgeName = _)
      (fun n op wf same => (topicOf_perform wf op request.edgeName).trans same) rfl _
  have present : request.edgeName ∈ (run n₀ first).session.state.iceflowConsumers := by
    rw [node_run]
    exact (constructed.mem_consumers_run _ request.edgeName).mpr known
  obtain ⟨consumer, held⟩ := StringMap.mem_iff_lookup.mp present
  obtain ⟨_, added, done⟩ := NodeInstanceService.repartition_known wf held
  have served : ((run n₀ first).perform (.serve index clocks)).session.state =
      (NodeInstanceService.repartition (run n₀ first).session.state request).2 :=
    serve_perform found
  have after := run_wellFormed constructed (first ++ [.serve index clocks])
  rw [run_concat] at after
  rw [run_serve, ← topic, ← done.serves_iff, ← served]
  have lasting := run_keeps (P := fun n => Serves n request.edgeName request.lowerPartitionBound
      request.upperPartitionBound ↔ Serves ((run n₀ first).perform
        (.serve index clocks)).session.state request.edgeName request.lowerPartitionBound
          request.upperPartitionBound) after
    (fun n op wf keeps same => (serves_perform wf keeps.1 keeps.2).trans same) kept Iff.rfl
  exact lasting

/-- After a QueryStats request was served, the callback of an edge is not called until the
consumer of the edge is repartitioned. -/
theorem query_silences {n₀ : IceFlow μ} (constructed : n₀.Constructed)
    {first rest : List (Step κ μ)} {index : Nat} {client : Option κ}
    (found : (run n₀ first).session.inFlight[index]? = some (client, .queryStats))
    (clocks : Clocks) {edge : String}
    (kept : ∀ x ∈ Transition.steps perform ((run n₀ first).perform (.serve index clocks)) rest,
      ∀ op ∈ x.1.stepOperations x.2, op.repartitionsConsumer edge = false) :
    (run n₀ (first ++ .serve index clocks :: rest)).session.state.subscriptionsOf edge = [] ∧
      (run n₀ (first ++ .serve index clocks :: rest)).session.state.invokedItems edge =
        (run n₀ first).session.state.invokedItems edge := by
  have wf := run_wellFormed constructed first
  have served : ((run n₀ first).perform (.serve index clocks)).session.state =
      (Op.call (.getConsumerStats clocks.consumers)).perform (run n₀ first).session.state :=
    serve_perform found
  have after := run_wellFormed constructed (first ++ [.serve index clocks])
  rw [run_concat] at after
  rw [run_serve]
  apply run_keeps (P := fun n : IceFlow μ => n.subscriptionsOf edge = [] ∧
    n.invokedItems edge = (run n₀ first).session.state.invokedItems edge) after _ kept
  · rw [served]
    have emptied : ((Op.call (.getConsumerStats clocks.consumers)).perform
        (run n₀ first).session.state).subscriptionsOf edge = [] :=
      subscriptionsOf_perform wf rfl
    refine ⟨emptied, ?_⟩
    have silent := silent_call wf (c := .getConsumerStats clocks.consumers) (by simp)
    rw [Op.perform, invokedItems, silent.history, invokedItems]
  · intro n op wf other inv
    refine ⟨?_, (invokedItems_perform wf op inv.1).trans inv.2⟩
    rw [subscriptionsOf_perform wf other, inv.1]
    split <;> rfl

end Control
end

section
open scoped Iceflow.Reference
open WordCount
namespace Control

/-- The executor asks for the partitions from 1 below 3, and its answer arrives. -/
theorem repartition_lasts_firstSplitter :
    IceFlow.Serves (run firstSplitter ([.runGrpcClient, .repartition () "t2l" 1 3] ++
        .serve 0 ⟨fun _ => 0, fun _ => 0⟩ :: [.finish ()])).session.state "t2l" 1 3 ↔
      if (Platform.nameOfUri (firstSplitter.topicOf "t2l")).isSome
      then (1 : UInt32) ≤ 3 else (3 : UInt32) ≤ 1 :=
  have found :
      (run firstSplitter [.runGrpcClient, .repartition () "t2l" 1 3]).session.inFlight[0]? =
        some (some (), .repartition ⟨"t2l", 1, 3⟩) := rfl
  repartition_lasts constructed_firstSplitter found (by decide) _ (by
    intro x member op listed
    obtain rfl := List.mem_singleton.mp member
    cases listed)

/-- The executor asks for statistics, and the answer arrives. -/
theorem query_silences_firstSplitter :
    (run firstSplitter ([.runGrpcClient, .queryEdgeStats ()] ++
        .serve 0 ⟨fun _ => 0, fun _ => 0⟩ :: [.finish ()])).session.state.subscriptionsOf
          "t2l" = [] ∧
      (run firstSplitter ([.runGrpcClient, .queryEdgeStats ()] ++
        .serve 0 ⟨fun _ => 0, fun _ => 0⟩ :: [.finish ()])).session.state.invokedItems "t2l" =
          (run firstSplitter [.runGrpcClient, .queryEdgeStats ()]).session.state.invokedItems
            "t2l" :=
  have found : (run firstSplitter [.runGrpcClient, .queryEdgeStats ()]).session.inFlight[0]? =
      some (some (), .queryStats) := rfl
  query_silences constructed_firstSplitter found _ (by
    intro x member op listed
    obtain rfl := List.mem_singleton.mp member
    cases listed)

end Control
end
end Iceflow
