import Iceflow.DagParser.Grammar
import Iceflow.Foundation.Results

/-! What the parser reads. Each function returns a value exactly if the fields of the
value are related to the members of the document in the way that the function reads
them, and it returns some value exactly if the document has the visited format. -/
namespace Iceflow
open Results

namespace Json

theorem at?_ok {j v : Json} {key : String} : j.at? key = .ok v ↔ j.member? key = some v := by
  cases j with
  | object members =>
    simp only [at?, member?]
    cases members.lookup key <;> simp
  | _ => simp [at?, member?]

theorem getString_ok {j : Json} {s : String} : j.getString = .ok s ↔ j = .string s := by
  cases j <;> simp [getString]

theorem getObject_ok {j : Json} {members : List (String × Json)} :
    j.getObject = .ok members ↔ j = .object members := by
  cases j <;> simp [getObject]

theorem exists_getUInt32 {j : Json} : (∃ n, j.getUInt32 = .ok n) ↔ j.toInt?.isSome := by
  rw [getUInt32]
  cases j.toInt? <;> simp

/-- On a value that has some member, `value` falls back to the default. -/
theorem value_of_member {j other : Json} {present : String} (found : j.member? present = some other)
    (key : String) (default : Json) : j.value key default = .ok ((j.member? key).getD default) := by
  cases j with
  | object members => rfl
  | _ => cases found

theorem contains_eq (j : Json) (key : String) : j.contains key = (j.member? key).isSome := by
  cases j <;> rfl

/-- A default that satisfies the predicate stands for an absent member. -/
theorem optional_iff {j default : Json} {key : String} {P : Json → Prop} (absent : P default) :
    j.Optional key P ↔ P ((j.member? key).getD default) := by
  unfold Optional
  cases j.member? key with
  | none => simpa using absent
  | some value => simp

end Json

namespace DAGParser
open Json

theorem emplaceItem_ok {entries next : StringMap String} {item : String × Json} :
    (do return entries.emplace item.1 (← item.2.getString) : Except Exception _) = .ok next ↔
      ∃ s, item.2 = .string s ∧ entries.emplace item.1 s = next := by
  simp only [bind_ok, pure_ok, getString_ok]

theorem exists_stringEntries {items : List (String × Json)} :
    (∃ entries, stringEntries items = .ok entries) ↔ ∀ item ∈ items, IsString item.2 := by
  refine exists_foldlM fun entries item => ?_
  constructor
  · rintro ⟨next, made⟩
    obtain ⟨s, isString, -⟩ := emplaceItem_ok.mp made
    exact ⟨s, isString⟩
  · rintro ⟨s, isString⟩
    exact ⟨_, emplaceItem_ok.mpr ⟨s, isString, rfl⟩⟩

/-- The entries are those of the object, the first of several with one key. -/
theorem stringEntries_lookup {items : List (String × Json)} {entries : StringMap String}
    (read : stringEntries items = .ok entries) (key : String) :
    (entries.lookup key).map Json.string = items.lookup key := by
  have start : items.lookup key =
      (((∅ : StringMap String).lookup key).map Json.string).or (items.lookup key) := by
    rw [AList.lookup_empty, Option.map_none, Option.none_or]
  rw [start]
  unfold stringEntries at read
  generalize (∅ : StringMap String) = before at read ⊢
  clear start
  -- An entry of the accumulated map is never replaced, so the rest of the items comes second.
  induction items generalizing before with
  | nil =>
    rw [List.foldlM_nil, pure_ok] at read
    rw [read, List.lookup_nil, Option.or_none]
  | cons item rest ih =>
    obtain ⟨name, value⟩ := item
    rw [List.foldlM_cons, bind_ok] at read
    obtain ⟨next, first, later⟩ := read
    obtain ⟨s, rfl, rfl⟩ := emplaceItem_ok.mp first
    rw [ih _ later, StringMap.lookup_emplace_eq, List.lookup_cons, Option.map_or, Option.or_assoc]
    congr 1
    by_cases same : key = name
    · rw [if_pos same, Option.map_some, Option.some_or, beq_iff_eq.mpr same]
    · rw [if_neg same, Option.map_none, Option.none_or, beq_eq_false_iff_ne.mpr same]

/-- How a number and a map of strings are taken from a document. -/
structure Reading where
  number : Json → UInt32 → Prop
  entries : Json → StringMap String → Prop

namespace Reading

structure ReadsEdge (r : Reading) (json : Json) (edge : Edge) : Prop where
  id : json.member? "id" = some (.string edge.id)
  target : json.member? "target" = some (.string edge.target)
  maxPartitions : json.Required "maxPartitions" (r.number · edge.maxPartitions)
  applicationConfiguration : (json.member? "applicationConfiguration").getD (.object []) =
    .object edge.applicationConfiguration

structure ReadsResources (r : Reading) (json : Json) (resources : Resources) : Prop where
  cpu : json.Required "cpu" (r.number · resources.cpu)
  memory : json.Required "memory" (r.number · resources.memory)

structure ReadsContainer (r : Reading) (json : Json) (container : Container) : Prop where
  image : json.member? "image" = some (.string container.image)
  tag : (json.member? "tag").getD (.string "latest") = .string container.tag
  envs : r.entries ((json.member? "envs").getD (.object [])) container.envs
  mounts : r.entries ((json.member? "mounts").getD (.object [])) container.mounts
  resources : json.Required "resources" (r.ReadsResources · container.resources)

structure ReadsNode (r : Reading) (json : Json) (node : Node) : Prop where
  task : json.member? "task" = some (.string node.task)
  name : json.member? "name" = some (.string node.name)
  description : json.member? "description" = some (.string node.description)
  executor : json.member? "executor" = some (.string node.executor)
  container : json.Required "container" (r.ReadsContainer · node.container)
  scalingParameters : json.Required "scalingParameters"
    (Required · "taskComplexity" (r.number · node.scalingParameters.taskComplexity))
  downstream : List.Forall₂ r.ReadsEdge ((json.member? "downstream").elim [] elements)
    node.downstream
  applicationConfiguration : (json.member? "applicationConfiguration").getD (.object []) =
    .object node.applicationConfiguration

structure Reads (r : Reading) (json : Json) (parser : DAGParser) : Prop where
  applicationName : json.member? "applicationName" = some (.string parser.applicationName)
  nodes : json.Required "nodes" (List.Forall₂ r.ReadsNode ·.elements parser.nodes)
  json : parser.json = some json

/-- As the functions of the parser do it. -/
def code : Reading where
  number value n := value.getUInt32 = .ok n
  entries value entries := stringEntries value.items = .ok entries

end Reading

theorem parseEdge_ok {json : Json} {edge : Edge} :
    parseEdge json = .ok edge ↔ Reading.code.ReadsEdge json edge := by
  simp only [parseEdge, bind_ok, pure_ok, at?_ok, getString_ok, getObject_ok]
  constructor
  · rintro ⟨_, idAt, id, rfl, _, targetAt, target, rfl, _, partitionsAt, maxPartitions, number, _,
      configurationAt, configuration, rfl, rfl⟩
    rw [value_of_member idAt, Except.ok.injEq] at configurationAt
    exact ⟨idAt, targetAt, ⟨_, partitionsAt, number⟩, configurationAt⟩
  · rintro ⟨idAt, targetAt, ⟨_, partitionsAt, number⟩, configurationAt⟩
    have configured := value_of_member idAt "applicationConfiguration" (.object [])
    rw [configurationAt] at configured
    exact ⟨_, idAt, _, rfl, _, targetAt, _, rfl, _, partitionsAt, _, number, _, configured, _, rfl,
      rfl⟩

theorem parseContainer_ok {json : Json} {container : Container} :
    parseContainer json = .ok container ↔ Reading.code.ReadsContainer json container := by
  simp only [parseContainer, bind_ok, pure_ok, at?_ok, getString_ok]
  constructor
  · rintro ⟨_, imageAt, image, rfl, _, tagAt, tag, rfl, _, envsAt, envs, envsRead, _, mountsAt,
      mounts, mountsRead, resources, resourcesAt, _, cpuAt, cpu, cpuRead, resources', resourcesAt',
      _, memoryAt, memory, memoryRead, rfl⟩
    rw [value_of_member imageAt, Except.ok.injEq] at tagAt envsAt mountsAt
    obtain rfl := Option.some.inj (resourcesAt.symm.trans resourcesAt')
    subst envsAt mountsAt
    exact ⟨imageAt, tagAt, envsRead, mountsRead, resources, resourcesAt, ⟨_, cpuAt, cpuRead⟩, _,
      memoryAt, memoryRead⟩
  · rintro ⟨imageAt, tagAt, envsRead, mountsRead, resources, resourcesAt, ⟨_, cpuAt, cpuRead⟩, _,
      memoryAt, memoryRead⟩
    have tagged := value_of_member imageAt "tag" (.string "latest")
    rw [tagAt] at tagged
    exact ⟨_, imageAt, _, rfl, _, tagged, _, rfl, _, value_of_member imageAt _ _, _, envsRead, _,
      value_of_member imageAt _ _, _, mountsRead, _, resourcesAt, _, cpuAt, _, cpuRead, _,
      resourcesAt, _, memoryAt, _, memoryRead, rfl⟩

theorem downstream_ok {json : Json} {next : List Edge → Except Exception Node} {node : Node} :
    (if json.contains "downstream" then do
      let edges ← (← json.at? "downstream").elements.mapM parseEdge
      next edges
    else do
      let edges ← pure []
      next edges) = .ok node ↔
      ∃ edges, List.Forall₂ Reading.code.ReadsEdge
        ((json.member? "downstream").elim [] elements) edges ∧ next edges = .ok node := by
  rw [contains_eq]
  cases found : json.member? "downstream" with
  | none => simp
  | some value => simp [bind_ok, at?_ok, found, mapM_ok, parseEdge_ok]

theorem parseNode_ok {json : Json} {node : Node} :
    parseNode json = .ok node ↔ Reading.code.ReadsNode json node := by
  simp only [parseNode, bind_ok, pure_ok, at?_ok, getString_ok, getObject_ok, parseContainer_ok,
    downstream_ok]
  constructor
  · rintro ⟨_, taskAt, task, rfl, _, nameAt, name, rfl, _, descriptionAt, description, rfl, _,
      executorAt, executor, rfl, _, containerAt, container, containerRead, _, parametersAt, _,
      complexityAt, complexity, complexityRead, downstream, downstreamRead, _, configurationAt,
      configuration, rfl, rfl⟩
    rw [value_of_member taskAt, Except.ok.injEq] at configurationAt
    exact ⟨taskAt, nameAt, descriptionAt, executorAt, ⟨_, containerAt, containerRead⟩,
      ⟨_, parametersAt, _, complexityAt, complexityRead⟩, downstreamRead,
      configurationAt⟩
  · rintro ⟨taskAt, nameAt, descriptionAt, executorAt, ⟨_, containerAt, containerRead⟩,
      ⟨_, parametersAt, _, complexityAt, complexityRead⟩, downstreamRead, configurationAt⟩
    have configured := value_of_member taskAt "applicationConfiguration" (.object [])
    rw [configurationAt] at configured
    exact ⟨_, taskAt, _, rfl, _, nameAt, _, rfl, _, descriptionAt, _, rfl, _, executorAt, _, rfl, _,
      containerAt, _, containerRead, _, parametersAt, _, complexityAt, _, complexityRead, _,
      downstreamRead, _, configured, _, rfl, rfl⟩

theorem fromJson_ok {json : Json} {parser : DAGParser} :
    fromJson json = .ok parser ↔ Reading.code.Reads json parser := by
  simp only [fromJson, bind_ok, pure_ok, at?_ok, getString_ok, mapM_ok, parseNode_ok]
  constructor
  · rintro ⟨_, nameAt, name, rfl, nodes, nodesAt, parsed, nodesRead, rfl⟩
    exact ⟨nameAt, ⟨nodes, nodesAt, nodesRead⟩, rfl⟩
  · rintro ⟨nameAt, ⟨nodes, nodesAt, nodesRead⟩, kept⟩
    refine ⟨_, nameAt, _, rfl, nodes, nodesAt, _, nodesRead, ?_⟩
    rw [← kept]

end DAGParser
end Iceflow
