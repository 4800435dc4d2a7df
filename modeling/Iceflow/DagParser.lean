import Iceflow.Json
import Iceflow.StringMap

/-! The application DAG and its parser. Loops over the elements of a document
stop at the first accessor that throws. -/
namespace Iceflow

structure Resources where
  cpu : UInt32
  memory : UInt32

structure Container where
  image : String
  tag : String
  envs : StringMap String
  mounts : StringMap String
  resources : Resources

structure ScalingParameters where
  taskComplexity : UInt32

structure Edge where
  id : String
  target : String
  maxPartitions : UInt32
  applicationConfiguration : List (String × Json)

structure Node where
  task : String
  name : String
  description : String
  executor : String
  container : Container
  scalingParameters : ScalingParameters
  downstream : List Edge
  applicationConfiguration : List (String × Json)

structure DAGParser where
  applicationName : String
  nodes : List Node
  json : Option Json

namespace DAGParser

/-- The loops over `envs` and `mounts`. -/
def stringEntries (items : List (String × Json)) : Except Exception (StringMap String) :=
  items.foldlM (fun entries item => do
    return entries.emplace item.1 (← item.2.getString)) ∅

def parseContainer (containerJson : Json) : Except Exception Container := do
  let image ← (← containerJson.at? "image").getString
  let tag ← (← containerJson.value "tag" (.string "latest")).getString
  let envs ← stringEntries (← containerJson.value "envs" (.object [])).items
  let mounts ← stringEntries (← containerJson.value "mounts" (.object [])).items
  let cpu ← (← (← containerJson.at? "resources").at? "cpu").getUInt32
  let memory ← (← (← containerJson.at? "resources").at? "memory").getUInt32
  return ⟨image, tag, envs, mounts, ⟨cpu, memory⟩⟩

def parseEdge (edgeJson : Json) : Except Exception Edge := do
  let id ← (← edgeJson.at? "id").getString
  let target ← (← edgeJson.at? "target").getString
  let maxPartitions ← (← edgeJson.at? "maxPartitions").getUInt32
  let applicationConfiguration ←
    (← edgeJson.value "applicationConfiguration" (.object [])).getObject
  return ⟨id, target, maxPartitions, applicationConfiguration⟩

def parseNode (nodeJson : Json) : Except Exception Node := do
  let task ← (← nodeJson.at? "task").getString
  let name ← (← nodeJson.at? "name").getString
  let description ← (← nodeJson.at? "description").getString
  let executor ← (← nodeJson.at? "executor").getString
  let container ← parseContainer (← nodeJson.at? "container")
  let taskComplexity ← (← (← nodeJson.at? "scalingParameters").at? "taskComplexity").getUInt32
  let downstream ←
    if nodeJson.contains "downstream" then
      (← nodeJson.at? "downstream").elements.mapM parseEdge
    else pure []
  let applicationConfiguration ←
    (← nodeJson.value "applicationConfiguration" (.object [])).getObject
  return ⟨task, name, description, executor, container, ⟨taskComplexity⟩, downstream,
    applicationConfiguration⟩

def fromJson (json : Json) : Except Exception DAGParser := do
  let appName ← (← json.at? "applicationName").getString
  let nodeList ← (← json.at? "nodes").elements.mapM parseNode
  return ⟨appName, nodeList, some json⟩

def findNodeByName (parser : DAGParser) (nodeName : String) : Except Exception Node :=
  match parser.nodes.find? (fun node => node.name = nodeName) with
  | some node => .ok node
  | none => .error (.runtimeError ("Node with name '" ++ nodeName ++ "' not found"))

/-- One entry for each node that has an edge to the task: the first such edge. -/
def findUpstreamEdges (parser : DAGParser) (taskId : String) : List (Node × Edge) :=
  parser.nodes.filterMap (fun node =>
    (node.downstream.find? (fun edge => edge.target = taskId)).map (fun edge => (node, edge)))

theorem mem_findUpstreamEdges {parser : DAGParser} {taskId : String} {node : Node} {edge : Edge} :
    (node, edge) ∈ parser.findUpstreamEdges taskId ↔
      node ∈ parser.nodes ∧
        node.downstream.find? (fun edge => edge.target = taskId) = some edge := by
  simp only [findUpstreamEdges, List.mem_filterMap, Option.map_eq_some_iff, Prod.mk.injEq]
  constructor
  · rintro ⟨n, member, e, found, rfl, rfl⟩
    exact ⟨member, found⟩
  · rintro ⟨member, found⟩
    exact ⟨node, member, edge, found, rfl, rfl⟩

end DAGParser
end Iceflow
