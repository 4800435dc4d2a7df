import Iceflow.DagParser

/-! The structure of DAG documents. A format fixes what stands for the constructs of the
grammar in dag-syntax.cddl: the grammar has one, the accessors of the parser another.
Members without a place in the format are disregarded. -/
namespace Iceflow

namespace Json

def member? : Json → String → Option Json
  | .object members, key => members.lookup key
  | _, _ => none

/-- A member of the grammar, `key: value`. -/
def Required (json : Json) (key : String) (P : Json → Prop) : Prop :=
  ∃ value, json.member? key = some value ∧ P value

/-- An optional member, `? key: value`. -/
def Optional (json : Json) (key : String) (P : Json → Prop) : Prop :=
  ∀ value, json.member? key = some value → P value

/-- `tstr` -/
def IsString (json : Json) : Prop := ∃ s, json = .string s

/-- `{ * text => any }` -/
def IsObject (json : Json) : Prop := ∃ members, json = .object members

/-- The number that a `uint` denotes. -/
def natural? : Json → Option Nat
  | .unsigned n => some n.toNat
  | .integer i => if 0 ≤ i then some i.toNat else none
  | _ => none

variable {json : Json} {key : String} {P Q : Json → Prop}

theorem Required.imp (required : json.Required key P) (h : ∀ value, P value → Q value) :
    json.Required key Q := by
  obtain ⟨value, found, holds⟩ := required
  exact ⟨value, found, h value holds⟩

theorem Optional.imp (optional : json.Optional key P) (h : ∀ value, P value → Q value) :
    json.Optional key Q := fun value found => h value (optional value found)

end Json

namespace DAGParser
open Json

structure Format where
  uint : Json → Prop
  executor : Json → Prop
  /-- `[ * node ]` -/
  nodes : (Json → Prop) → Json → Prop
  /-- `[ + edge ]` -/
  edges : (Json → Prop) → Json → Prop
  /-- The members `envs` and `mounts` of a container. -/
  strings : Json → Prop
  /-- The member `applicationConfiguration` of an edge. -/
  configuration : Json → Prop

namespace Format

structure IsEdge (f : Format) (json : Json) : Prop where
  id : json.Required "id" IsString
  target : json.Required "target" IsString
  maxPartitions : json.Required "maxPartitions" f.uint
  applicationConfiguration : json.Optional "applicationConfiguration" f.configuration

structure IsResources (f : Format) (json : Json) : Prop where
  cpu : json.Required "cpu" f.uint
  memory : json.Required "memory" f.uint

structure IsContainer (f : Format) (json : Json) : Prop where
  image : json.Required "image" IsString
  tag : json.Optional "tag" IsString
  envs : json.Optional "envs" f.strings
  mounts : json.Optional "mounts" f.strings
  resources : json.Required "resources" f.IsResources

structure IsNode (f : Format) (json : Json) : Prop where
  task : json.Required "task" IsString
  name : json.Required "name" IsString
  description : json.Required "description" IsString
  executor : json.Required "executor" f.executor
  container : json.Required "container" f.IsContainer
  scalingParameters : json.Required "scalingParameters" (Required · "taskComplexity" f.uint)
  downstream : json.Optional "downstream" (f.edges f.IsEdge)
  applicationConfiguration : json.Optional "applicationConfiguration" IsObject

structure IsApplication (f : Format) (json : Json) : Prop where
  applicationName : json.Required "applicationName" IsString
  nodes : json.Required "nodes" (f.nodes f.IsNode)

/-- The grammar of dag-syntax.cddl. -/
def cddl : Format where
  uint value := value.natural?.isSome
  executor value := value = .string "container" ∨ value = .string "static"
  nodes isNode value := ∃ nodes, value = .array nodes ∧ ∀ node ∈ nodes, isNode node
  edges isEdge value := ∃ edges, value = .array edges ∧ edges ≠ [] ∧ ∀ edge ∈ edges, isEdge edge
  strings _ := True
  configuration _ := True

/-- The grammar with the optional members that only the parser knows. -/
def extended : Format where
  __ := cddl
  strings value := ∃ members, value = .object members ∧ ∀ member ∈ members, IsString member.2
  configuration := IsObject

/-- The extended grammar with numbers of 32 bits. -/
def extended32 : Format where
  __ := extended
  uint value := ∃ n, value.natural? = some n ∧ n < UInt32.size

/-- What the accessors of the parser let through: any string for an executor, any number
or boolean for a number, and for an array any value at all if what a loop over it visits
is as it should be. -/
def visited : Format where
  uint value := value.toInt?.isSome
  executor := IsString
  nodes isNode value := ∀ node ∈ value.elements, isNode node
  edges isEdge value := ∀ edge ∈ value.elements, isEdge edge
  strings value := ∀ item ∈ value.items, IsString item.2
  configuration := IsObject

theorem natural_toInt {json : Json} {n : Nat} (natural : json.natural? = some n) :
    json.toInt? = some (n : Int) := by
  cases json with
  | unsigned m =>
    simp only [natural?, Option.some.injEq] at natural
    rw [toInt?, natural]
  | integer i =>
    simp only [natural?, Option.ite_none_right_eq_some, Option.some.injEq] at natural
    obtain ⟨nonneg, same⟩ := natural
    rw [toInt?, ← same, Int.toNat_of_nonneg nonneg]
  | _ => cases natural

/-- Each construct of the format `f` is one of `g`. -/
structure Includes (g f : Format) : Prop where
  uint : ∀ value, f.uint value → g.uint value
  executor : ∀ value, f.executor value → g.executor value
  nodes : ∀ {P Q : Json → Prop}, (∀ value, P value → Q value) →
    ∀ value, f.nodes P value → g.nodes Q value
  edges : ∀ {P Q : Json → Prop}, (∀ value, P value → Q value) →
    ∀ value, f.edges P value → g.edges Q value
  strings : ∀ value, f.strings value → g.strings value
  configuration : ∀ value, f.configuration value → g.configuration value

namespace Includes
variable {f g : Format} {json : Json} (included : g.Includes f)
include included

theorem isEdge (edge : f.IsEdge json) : g.IsEdge json :=
  ⟨edge.id, edge.target, edge.maxPartitions.imp included.uint,
    edge.applicationConfiguration.imp included.configuration⟩

theorem isContainer (container : f.IsContainer json) : g.IsContainer json :=
  ⟨container.image, container.tag, container.envs.imp included.strings,
    container.mounts.imp included.strings,
    container.resources.imp fun _ resources =>
      ⟨resources.cpu.imp included.uint, resources.memory.imp included.uint⟩⟩

theorem isNode (node : f.IsNode json) : g.IsNode json :=
  ⟨node.task, node.name, node.description, node.executor.imp included.executor,
    node.container.imp fun _ container => included.isContainer container,
    node.scalingParameters.imp fun _ parameters => parameters.imp included.uint,
    node.downstream.imp (included.edges fun _ edge => included.isEdge edge),
    node.applicationConfiguration⟩

theorem isApplication (application : f.IsApplication json) : g.IsApplication json :=
  ⟨application.applicationName,
    application.nodes.imp (included.nodes fun _ node => included.isNode node)⟩

end Includes

theorem visited_includes_extended : visited.Includes extended where
  uint value natural := by
    obtain ⟨n, denotes⟩ := Option.isSome_iff_exists.mp natural
    exact Option.isSome_iff_exists.mpr ⟨n, natural_toInt denotes⟩
  executor value := by
    rintro (rfl | rfl)
    · exact ⟨_, rfl⟩
    · exact ⟨_, rfl⟩
  nodes imp value := by
    rintro ⟨nodes, rfl, all⟩ node member
    exact imp node (all node member)
  edges imp value := by
    rintro ⟨edges, rfl, -, all⟩ edge member
    exact imp edge (all edge member)
  strings value := by
    rintro ⟨members, rfl, all⟩
    exact all
  configuration value := id

end Format
end DAGParser
end Iceflow
