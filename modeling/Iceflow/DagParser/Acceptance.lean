import Iceflow.DagParser.Reading

/-! Which documents the parser accepts. -/
namespace Iceflow

namespace Json
variable {json : Json} {key : String}

theorem required_isString :
    json.Required key IsString ↔ ∃ s, json.member? key = some (.string s) := by
  constructor
  · rintro ⟨_, found, s, rfl⟩
    exact ⟨s, found⟩
  · rintro ⟨s, found⟩
    exact ⟨_, found, s, rfl⟩

theorem optional_isObject : json.Optional key IsObject ↔
    ∃ members, (json.member? key).getD (.object []) = .object members :=
  optional_iff ⟨[], rfl⟩

theorem optional_isString (default : String) : json.Optional key IsString ↔
    ∃ s, (json.member? key).getD (.string default) = .string s :=
  optional_iff ⟨default, rfl⟩

theorem optional_elements {P : Json → Prop} :
    json.Optional key (fun value => ∀ element ∈ value.elements, P element) ↔
      ∀ element ∈ (json.member? key).elim [] elements, P element := by
  unfold Optional
  cases json.member? key <;> simp

theorem required_getUInt32 : json.Required key (·.toInt?.isSome) ↔
    ∃ n, json.Required key (·.getUInt32 = .ok n) := by
  constructor
  · rintro ⟨value, found, numeric⟩
    obtain ⟨n, read⟩ := exists_getUInt32.mpr numeric
    exact ⟨n, value, found, read⟩
  · rintro ⟨n, value, found, read⟩
    exact ⟨value, found, exists_getUInt32.mp ⟨n, read⟩⟩

end Json

namespace DAGParser
open Json Results

namespace Format
variable {json : Json}

theorem optional_strings {key : String} : json.Optional key visited.strings ↔
    ∃ entries, Reading.code.entries ((json.member? key).getD (.object [])) entries := by
  have none_listed : visited.strings (.object []) := fun _ => nofun
  rw [optional_iff none_listed]
  exact exists_stringEntries.symm

theorem visited_isEdge :
    visited.IsEdge json ↔ ∃ edge, Reading.code.ReadsEdge json edge := by
  constructor
  · intro edge
    obtain ⟨id, idAt⟩ := required_isString.mp edge.id
    obtain ⟨target, targetAt⟩ := required_isString.mp edge.target
    obtain ⟨maxPartitions, number⟩ := required_getUInt32.mp edge.maxPartitions
    obtain ⟨configuration, configured⟩ := optional_isObject.mp edge.applicationConfiguration
    exact ⟨⟨id, target, maxPartitions, configuration⟩, idAt, targetAt, number, configured⟩
  · rintro ⟨edge, reads⟩
    exact ⟨required_isString.mpr ⟨_, reads.id⟩, required_isString.mpr ⟨_, reads.target⟩,
      required_getUInt32.mpr ⟨_, reads.maxPartitions⟩,
      optional_isObject.mpr ⟨_, reads.applicationConfiguration⟩⟩

theorem visited_isResources :
    visited.IsResources json ↔ ∃ resources, Reading.code.ReadsResources json resources := by
  constructor
  · intro resources
    obtain ⟨cpu, cpuRead⟩ := required_getUInt32.mp resources.cpu
    obtain ⟨memory, memoryRead⟩ := required_getUInt32.mp resources.memory
    exact ⟨⟨cpu, memory⟩, cpuRead, memoryRead⟩
  · rintro ⟨resources, reads⟩
    exact ⟨required_getUInt32.mpr ⟨_, reads.cpu⟩, required_getUInt32.mpr ⟨_, reads.memory⟩⟩

theorem visited_isContainer :
    visited.IsContainer json ↔ ∃ container, Reading.code.ReadsContainer json container := by
  constructor
  · intro container
    obtain ⟨image, imageAt⟩ := required_isString.mp container.image
    obtain ⟨tag, tagged⟩ := (optional_isString "latest").mp container.tag
    obtain ⟨envs, envsRead⟩ := optional_strings.mp container.envs
    obtain ⟨mounts, mountsRead⟩ := optional_strings.mp container.mounts
    obtain ⟨value, found, isResources⟩ := container.resources
    obtain ⟨resources, reads⟩ := visited_isResources.mp isResources
    exact ⟨⟨image, tag, envs, mounts, resources⟩, imageAt, tagged, envsRead, mountsRead, value,
      found, reads⟩
  · rintro ⟨container, reads⟩
    exact ⟨required_isString.mpr ⟨_, reads.image⟩, (optional_isString "latest").mpr ⟨_, reads.tag⟩,
      optional_strings.mpr ⟨_, reads.envs⟩, optional_strings.mpr ⟨_, reads.mounts⟩,
      reads.resources.imp fun _ resources => visited_isResources.mpr ⟨_, resources⟩⟩

theorem visited_isNode : visited.IsNode json ↔ ∃ node, Reading.code.ReadsNode json node := by
  constructor
  · intro node
    obtain ⟨task, taskAt⟩ := required_isString.mp node.task
    obtain ⟨name, nameAt⟩ := required_isString.mp node.name
    obtain ⟨description, descriptionAt⟩ := required_isString.mp node.description
    obtain ⟨executor, executorAt⟩ := required_isString.mp node.executor
    obtain ⟨value, found, isContainer⟩ := node.container
    obtain ⟨container, containerRead⟩ := visited_isContainer.mp isContainer
    obtain ⟨parameters, parametersAt, isComplexity⟩ := node.scalingParameters
    obtain ⟨complexity, complexityRead⟩ := required_getUInt32.mp isComplexity
    obtain ⟨downstream, downstreamRead⟩ := exists_forall₂.mpr fun edge member =>
      visited_isEdge.mp (optional_elements.mp node.downstream edge member)
    obtain ⟨configuration, configured⟩ := optional_isObject.mp node.applicationConfiguration
    exact ⟨⟨task, name, description, executor, container, ⟨complexity⟩, downstream, configuration⟩,
      taskAt, nameAt, descriptionAt, executorAt, ⟨value, found, containerRead⟩,
      ⟨parameters, parametersAt, complexityRead⟩, downstreamRead, configured⟩
  · rintro ⟨node, reads⟩
    refine ⟨required_isString.mpr ⟨_, reads.task⟩, required_isString.mpr ⟨_, reads.name⟩,
      required_isString.mpr ⟨_, reads.description⟩, required_isString.mpr ⟨_, reads.executor⟩,
      reads.container.imp fun _ container => visited_isContainer.mpr ⟨_, container⟩,
      reads.scalingParameters.imp fun _ complexity => required_getUInt32.mpr ⟨_, complexity⟩,
      optional_elements.mpr fun edge member => ?_,
      optional_isObject.mpr ⟨_, reads.applicationConfiguration⟩⟩
    exact visited_isEdge.mpr (exists_forall₂.mp ⟨_, reads.downstream⟩ edge member)

theorem visited_isApplication :
    visited.IsApplication json ↔ ∃ parser, fromJson json = .ok parser := by
  simp only [fromJson_ok]
  constructor
  · intro application
    obtain ⟨name, nameAt⟩ := required_isString.mp application.applicationName
    obtain ⟨nodes, nodesAt, areNodes⟩ := application.nodes
    obtain ⟨parsed, nodesRead⟩ := exists_forall₂.mpr fun node member =>
      visited_isNode.mp (areNodes node member)
    exact ⟨⟨name, parsed, some json⟩, nameAt, ⟨nodes, nodesAt, nodesRead⟩, rfl⟩
  · rintro ⟨parser, reads⟩
    refine ⟨required_isString.mpr ⟨_, reads.applicationName⟩, reads.nodes.imp fun nodes all => ?_⟩
    exact fun node member => visited_isNode.mpr (exists_forall₂.mp ⟨_, all⟩ node member)

end Format

/-- The parser accepts exactly the documents of the visited format and throws on every
other value. -/
theorem fromJson_accepts_iff (json : Json) :
    ((∃ parser, fromJson json = .ok parser) ↔ Format.visited.IsApplication json) ∧
      (¬ Format.visited.IsApplication json → ∃ e, fromJson json = .error e) := by
  refine ⟨Format.visited_isApplication.symm, fun malformed => ?_⟩
  cases outcome : fromJson json with
  | error e => exact ⟨e, rfl⟩
  | ok parser => exact absurd (Format.visited_isApplication.mpr ⟨parser, outcome⟩) malformed

/-- The nodes and edges of the document are members of objects, its numbers are negative,
fractional and boolean, and the executor is not one of the two. -/
def looseDocument : Json :=
  .object [("applicationName", .string "wordcount"), ("nodes", .object [("first", .object [
    ("task", .string "1"), ("name", .string "text2lines"), ("description", .string ""),
    ("executor", .string "vm"),
    ("container", .object [("image", .string "text2lines"), ("resources", .object [
      ("cpu", .integer (-1)), ("memory", .float (1 / 2))])]),
    ("scalingParameters", .object [("taskComplexity", .boolean true)]),
    ("downstream", .object [("t2l", .object [
      ("id", .string "t2l"), ("target", .string "2"), ("maxPartitions", .integer (-3))])])])])]

theorem looseDocument_accepted : ∃ parser, fromJson looseDocument = .ok parser :=
  ⟨_, rfl⟩

theorem looseDocument_not_cddl : ¬ ((∃ parser, fromJson looseDocument = .ok parser) →
    Format.cddl.IsApplication looseDocument) := by
  intro checked
  obtain ⟨nodes, found, members, isArray, -⟩ := (checked looseDocument_accepted).nodes
  rw [isArray] at found
  cases Option.some.inj found

end DAGParser
end Iceflow
