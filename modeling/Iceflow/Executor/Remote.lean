import Iceflow.Foundation.RemoteCalls
import Iceflow.Executor

/-! The executor and the node instance that it is connected to. Threads of the executor call
`repartition` and `queryEdgeStats`, the server of the node instance serves their requests, one
at a time and while the node takes no other step, and between them the node is called and
receives items. Before `runGrpcClient` the executor has
no stub: `repartition` returns with a warning, `queryEdgeStats` dereferences a null pointer. -/
namespace Iceflow
open RemoteCalls

/-- What the consumers and the producers of a node read of the clock during a query. -/
structure Clocks where
  consumers : String → Int
  producers : String → Int

variable [Platform] {κ μ : Type}

namespace NodeInstanceService

def serve (n : IceFlow μ) (clocks : Clocks) :
    NodeInstance.Request → NodeInstance.Response × IceFlow μ
  | .repartition request =>
    let ((status, response), n) := repartition n request
    (.repartition status response, n)
  | .queryStats =>
    let ((status, response), n) := queryStats n clocks.consumers clocks.producers
    (.queryStats status response, n)

/-- The server of the node instance; its own steps are calls and deliveries. -/
def server : Server (IceFlow μ) NodeInstance.Request NodeInstance.Response Clocks (Op μ) where
  serve := serve
  own n op := op.perform n

/-- The operations of the node that an effect stands for. -/
def operations : Effect NodeInstance.Request Clocks (Op μ) → List (Op μ)
  | .served _ (.repartition request) =>
    [.call (.repartitionConsumer request.edgeName
      (partitionRange request.lowerPartitionBound request.upperPartitionBound))]
  | .served clocks .queryStats =>
    [.call (.getConsumerStats clocks.consumers), .call (.getProducerStats clocks.producers)]
  | .own op => [op]

theorem repartition_node (n : IceFlow μ) (request : RepartitionRequest) :
    (repartition n request).2 = (n.repartitionConsumer request.edgeName
      (partitionRange request.lowerPartitionBound request.upperPartitionBound)).2 := by
  simp only [repartition]
  split <;> rename_i same <;> rw [same]

theorem apply_operations (n : IceFlow μ) (effect : Effect NodeInstance.Request Clocks (Op μ)) :
    effect.apply server n = n.run (operations effect) := by
  cases effect with
  | own op => rfl
  | served clocks request =>
    cases request with
    | repartition request => exact repartition_node n request
    | queryStats => rfl

/-- Serving requests is nothing but calling the node. -/
theorem run_operations (n : IceFlow μ)
    (effects : List (Effect NodeInstance.Request Clocks (Op μ))) :
    Transition.run (Effect.apply server) n effects = n.run (effects.flatMap operations) := by
  induction effects generalizing n with
  | nil => rfl
  | cons effect rest ih =>
    rw [Transition.run_cons, ih, List.flatMap_cons, IceFlow.run, IceFlow.run,
      Transition.run_append, apply_operations]

end NodeInstanceService

structure Control (κ μ : Type) [Platform] where
  /-- `m_nodeInstanceService` is set. -/
  connected : Bool
  /-- The executor has dereferenced a null pointer. -/
  crashed : Bool
  session : Session κ (IceFlow μ) NodeInstance.Request NodeInstance.Response

namespace Control

inductive Step (κ μ : Type) [Platform] where
  | runGrpcClient
  | repartition (t : κ) (edgeName : String) (lowerPartitionBound upperPartitionBound : UInt32)
  | queryEdgeStats (t : κ)
  | serve (index : Nat) (clocks : Clocks)
  | lose (index : Nat)
  | fail (t : κ)
  | finish (t : κ)
  | node (op : Op μ)

def initial (n : IceFlow μ) : Control κ μ := ⟨false, false, .initial n⟩

/-- The step of the session, if any. Nothing more happens in a process that crashed. -/
def remote (c : Control κ μ) :
    Step κ μ → Option (RemoteCalls.Step κ NodeInstance.Request Clocks (Op μ))
  | .runGrpcClient => none
  | .repartition t edgeName lowerPartitionBound upperPartitionBound =>
    if c.connected = true ∧ c.crashed = false then
      some (.call t (.repartition ⟨edgeName, lowerPartitionBound, upperPartitionBound⟩))
    else none
  | .queryEdgeStats t =>
    if c.connected = true ∧ c.crashed = false then some (.call t .queryStats) else none
  | .fail t => if c.crashed = true then none else some (.fail t)
  | .finish t => if c.crashed = true then none else some (.finish t)
  | .serve index clocks => some (.serve index clocks)
  | .lose index => some (.lose index)
  | .node op => some (.own op)

variable [DecidableEq κ]

def perform (c : Control κ μ) (step : Step κ μ) : Control κ μ where
  connected := match step with
    | .runGrpcClient => c.connected || !c.crashed
    | _ => c.connected
  crashed := match step with
    | .queryEdgeStats _ => c.crashed || !c.connected
    | _ => c.crashed
  session := match c.remote step with
    | some step => c.session.perform NodeInstanceService.server step
    | none => c.session

abbrev run (n : IceFlow μ) (steps : List (Step κ μ)) : Control κ μ :=
  Transition.run perform (initial n) steps

def remoteSteps (n : IceFlow μ) (steps : List (Step κ μ)) :
    List (RemoteCalls.Step κ NodeInstance.Request Clocks (Op μ)) :=
  (Transition.steps perform (initial n) steps).filterMap (fun x => x.1.remote x.2)

/-- The operations of the node in a run. -/
def operations (n : IceFlow μ) (steps : List (Step κ μ)) : List (Op μ) :=
  (effects NodeInstanceService.server (.initial n) (remoteSteps n steps)).flatMap
    NodeInstanceService.operations

theorem session_run (n : IceFlow μ) (steps : List (Step κ μ)) :
    (run n steps).session =
      RemoteCalls.run NodeInstanceService.server (.initial n) (remoteSteps n steps) := by
  have general (c : Control κ μ) : (Transition.run perform c steps).session =
      RemoteCalls.run NodeInstanceService.server c.session
        ((Transition.steps perform c steps).filterMap (fun x => x.1.remote x.2)) := by
    induction steps generalizing c with
    | nil => rfl
    | cons step rest ih =>
      rw [Transition.run_cons, ih, Transition.steps, List.filterMap_cons]
      cases same : c.remote step <;> simp [perform, same]
  exact general (initial n)

/-- The node is in a state that its operations alone would have reached. -/
theorem node_run (n : IceFlow μ) (steps : List (Step κ μ)) :
    (run n steps).session.state = n.run (operations n steps) := by
  rw [session_run, state_run, NodeInstanceService.run_operations]
  rfl

def queryResult : Option NodeInstance.Response → Except Exception (StringMap EdgeStats)
  | some (.queryStats status response) => IceflowExecutor.queryEdgeStats (status, response)
  | _ => .error (.runtimeError "Failed to query stats from NodeInstance.")

theorem run_concat (n : IceFlow μ) (steps : List (Step κ μ)) (step : Step κ μ) :
    run n (steps ++ [step]) = (run n steps).perform step :=
  Transition.run_append perform (initial n) steps [step]

end Control
end Iceflow
