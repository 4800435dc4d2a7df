import Iceflow.DagParser.Acceptance

/-! The parser loses and alters nothing of a document of the extended grammar exactly if
its numbers have 32 bits. -/
namespace Iceflow

theorem Json.required_iff {json value : Json} {key : String} {P : Json → Prop}
    (found : json.member? key = some value) : json.Required key P ↔ P value := by
  constructor
  · rintro ⟨other, found', holds⟩
    obtain rfl := Option.some.inj (found.symm.trans found')
    exact holds
  · exact fun holds => ⟨value, found, holds⟩

namespace DAGParser
open Json Results

namespace Reading

/-- Numbers are equal as integers, and a map has the entries of the object. -/
def faithful : Reading where
  number value n := value.natural? = some n.toNat
  entries value entries := ∀ key, (entries.lookup key).map Json.string = value.member? key

/-- The conversion to 32 bits keeps exactly the numbers of 32 bits. -/
theorem faithful_number_iff {value : Json} {n : UInt32} (natural : Format.extended.uint value)
    (read : code.number value n) :
    faithful.number value n ↔ Format.extended32.uint value := by
  obtain ⟨k, denotes⟩ := Option.isSome_iff_exists.mp natural
  have converted : UInt32.ofInt k = n := by
    have read : value.getUInt32 = .ok n := read
    simpa [getUInt32, Format.natural_toInt denotes] using read
  have kept : n.toNat = k % UInt32.size := by
    have value : ((k : Int) % 2 ^ 32).toNat = k % 2 ^ 32 := by omega
    rw [← converted, UInt32.ofInt, value, UInt32.toNat_ofNat', Nat.mod_mod]
    rfl
  simp only [faithful, Format.extended32, denotes, Option.some.injEq]
  constructor
  · intro same
    exact ⟨k, rfl, same ▸ n.toNat_lt_size⟩
  · rintro ⟨_, rfl, small⟩
    rw [kept, Nat.mod_eq_of_lt small]

variable {json : Json}

theorem faithful_member_iff {key : String} {n : UInt32}
    (natural : json.Required key Format.extended.uint)
    (read : json.Required key (code.number · n)) :
    json.Required key (faithful.number · n) ↔ json.Required key Format.extended32.uint := by
  obtain ⟨value, found, denotes⟩ := natural
  rw [required_iff found] at read ⊢
  rw [required_iff found, faithful_number_iff denotes read]

theorem faithful_edge_iff {edge : Edge} (conforms : Format.extended.IsEdge json)
    (reads : code.ReadsEdge json edge) :
    faithful.ReadsEdge json edge ↔ Format.extended32.IsEdge json := by
  have number := faithful_member_iff conforms.maxPartitions reads.maxPartitions
  constructor
  · intro same
    exact ⟨conforms.id, conforms.target, number.mp same.maxPartitions,
      conforms.applicationConfiguration⟩
  · intro small
    exact ⟨reads.id, reads.target, number.mpr small.maxPartitions, reads.applicationConfiguration⟩

theorem faithful_resources_iff {resources : Resources}
    (conforms : Format.extended.IsResources json) (reads : code.ReadsResources json resources) :
    faithful.ReadsResources json resources ↔ Format.extended32.IsResources json := by
  have cpu := faithful_member_iff conforms.cpu reads.cpu
  have memory := faithful_member_iff conforms.memory reads.memory
  constructor
  · intro same
    exact ⟨cpu.mp same.cpu, memory.mp same.memory⟩
  · intro small
    exact ⟨cpu.mpr small.cpu, memory.mpr small.memory⟩

theorem faithful_entries {key : String} {entries : StringMap String}
    (conforms : json.Optional key Format.extended.strings)
    (read : code.entries ((json.member? key).getD (.object [])) entries) :
    faithful.entries ((json.member? key).getD (.object [])) entries := by
  have none_listed : Format.extended.strings (.object []) := ⟨[], rfl, nofun⟩
  obtain ⟨members, isObject, -⟩ := (optional_iff none_listed).mp conforms
  rw [isObject] at read ⊢
  exact stringEntries_lookup read

theorem faithful_container_iff {container : Container}
    (conforms : Format.extended.IsContainer json) (reads : code.ReadsContainer json container) :
    faithful.ReadsContainer json container ↔ Format.extended32.IsContainer json := by
  obtain ⟨value, found, isResources⟩ := conforms.resources
  have read := (required_iff found).mp reads.resources
  have resources := faithful_resources_iff isResources read
  constructor
  · intro same
    exact ⟨conforms.image, conforms.tag, conforms.envs, conforms.mounts, value, found,
      resources.mp ((required_iff found).mp same.resources)⟩
  · intro small
    exact ⟨reads.image, reads.tag, faithful_entries conforms.envs reads.envs,
      faithful_entries conforms.mounts reads.mounts, value, found,
      resources.mpr ((required_iff found).mp small.resources)⟩

theorem faithful_downstream_iff {edges : List Edge}
    (conforms : json.Optional "downstream" (Format.extended.edges Format.extended.IsEdge))
    (reads : List.Forall₂ code.ReadsEdge ((json.member? "downstream").elim [] elements) edges) :
    List.Forall₂ faithful.ReadsEdge ((json.member? "downstream").elim [] elements) edges ↔
      json.Optional "downstream" (Format.extended32.edges Format.extended32.IsEdge) := by
  cases found : json.member? "downstream" with
  | none =>
    rw [found] at reads
    obtain rfl := List.forall₂_nil_left_iff.mp reads
    exact iff_of_true .nil fun value present => absurd (found.symm.trans present) nofun
  | some value =>
    obtain ⟨listed, rfl, nonempty, all⟩ := conforms value found
    rw [found] at reads
    have same : List.Forall₂ faithful.ReadsEdge listed edges ↔
        ∀ edge ∈ listed, Format.extended32.IsEdge edge :=
      forall₂_iff_forall reads fun edge member _ read => faithful_edge_iff (all edge member) read
    refine same.trans ⟨fun small value present => ?_, fun small => ?_⟩
    · obtain rfl := Option.some.inj (found.symm.trans present)
      exact ⟨listed, rfl, nonempty, small⟩
    · obtain ⟨_, array, -, small⟩ := small _ found
      obtain rfl := Json.array.inj array
      exact small

theorem faithful_node_iff {node : Node} (conforms : Format.extended.IsNode json)
    (reads : code.ReadsNode json node) :
    faithful.ReadsNode json node ↔ Format.extended32.IsNode json := by
  obtain ⟨value, found, isContainer⟩ := conforms.container
  have container := faithful_container_iff isContainer ((required_iff found).mp reads.container)
  obtain ⟨parameters, parametersAt, isComplexity⟩ := conforms.scalingParameters
  have complexity := faithful_member_iff isComplexity
    ((required_iff parametersAt).mp reads.scalingParameters)
  have downstream := faithful_downstream_iff conforms.downstream reads.downstream
  constructor
  · intro same
    exact ⟨conforms.task, conforms.name, conforms.description, conforms.executor,
      ⟨value, found, container.mp ((required_iff found).mp same.container)⟩,
      ⟨parameters, parametersAt,
        complexity.mp ((required_iff parametersAt).mp same.scalingParameters)⟩,
      downstream.mp same.downstream, conforms.applicationConfiguration⟩
  · intro small
    exact ⟨reads.task, reads.name, reads.description, reads.executor,
      ⟨value, found, container.mpr ((required_iff found).mp small.container)⟩,
      ⟨parameters, parametersAt,
        complexity.mpr ((required_iff parametersAt).mp small.scalingParameters)⟩,
      downstream.mpr small.downstream, reads.applicationConfiguration⟩

theorem faithful_iff {parser : DAGParser} (conforms : Format.extended.IsApplication json)
    (reads : code.Reads json parser) :
    faithful.Reads json parser ↔ Format.extended32.IsApplication json := by
  obtain ⟨_, found, nodes, rfl, all⟩ := conforms.nodes
  have same : List.Forall₂ faithful.ReadsNode nodes parser.nodes ↔
      ∀ node ∈ nodes, Format.extended32.IsNode node :=
    forall₂_iff_forall ((required_iff found).mp reads.nodes) fun node member _ read =>
      faithful_node_iff (all node member) read
  constructor
  · intro kept
    exact ⟨conforms.applicationName, _, found, nodes, rfl,
      same.mp ((required_iff found).mp kept.nodes)⟩
  · intro small
    obtain ⟨_, array, small⟩ := (required_iff found).mp small.nodes
    obtain rfl := Json.array.inj array
    exact ⟨reads.applicationName, ⟨_, found, same.mpr small⟩, reads.json⟩

end Reading

/-- Every document of the extended grammar is parsed, and the nodes are those of the
document exactly if its numbers have 32 bits. -/
theorem fromJson_faithful_iff {json : Json} (conforms : Format.extended.IsApplication json) :
    (∃ parser, fromJson json = .ok parser) ∧
      ((∃ parser, fromJson json = .ok parser ∧ Reading.faithful.Reads json parser) ↔
        Format.extended32.IsApplication json) := by
  have accepted := Format.visited_includes_extended.isApplication conforms
  obtain ⟨parser, parsed⟩ := Format.visited_isApplication.mp accepted
  have same := Reading.faithful_iff conforms (fromJson_ok.mp parsed)
  refine ⟨⟨parser, parsed⟩, ?_, fun small => ⟨parser, parsed, same.mpr small⟩⟩
  rintro ⟨other, parsed', kept⟩
  obtain rfl := Except.ok.inj (parsed.symm.trans parsed')
  exact same.mp kept

/-- The first node of the word count application with the given number of bytes. -/
def reserving (memory : UInt64) : Json :=
  .object [("applicationName", .string "WordCount"), ("nodes", .array [.object [
    ("task", .string "1"), ("name", .string "text2lines"),
    ("description", .string "Splits text into lines."), ("executor", .string "container"),
    ("container", .object [("image", .string "text2lines-image"), ("resources", .object [
      ("cpu", .unsigned 1), ("memory", .unsigned memory)])]),
    ("scalingParameters", .object [("taskComplexity", .unsigned 2)]),
    ("downstream", .array [.object [
      ("id", .string "t2l"), ("target", .string "2"), ("maxPartitions", .unsigned 3)]])]])]

theorem reserving_conforms (memory : UInt64) :
    Format.extended.IsApplication (reserving memory) where
  applicationName := ⟨_, rfl, _, rfl⟩
  nodes := by
    refine ⟨_, rfl, _, rfl, ?_⟩
    rintro _ (_ | ⟨_, ⟨⟩⟩)
    refine ⟨⟨_, rfl, _, rfl⟩, ⟨_, rfl, _, rfl⟩, ⟨_, rfl, _, rfl⟩, ⟨_, rfl, .inl rfl⟩,
      ⟨_, rfl, ⟨_, rfl, _, rfl⟩, nofun, nofun, nofun, _, rfl, ⟨_, rfl, rfl⟩, _, rfl, rfl⟩,
      ⟨_, rfl, _, rfl, rfl⟩, ?_, nofun⟩
    intro downstream found
    obtain rfl := Option.some.inj found
    refine ⟨_, rfl, nofun, ?_⟩
    rintro _ (_ | ⟨_, ⟨⟩⟩)
    exact ⟨⟨_, rfl, _, rfl⟩, ⟨_, rfl, _, rfl⟩, ⟨_, rfl, rfl⟩, nofun⟩

theorem fromJson_faithful_iff_reserving :
    (∃ parser, fromJson (reserving 1000000000) = .ok parser) ∧
      ((∃ parser, fromJson (reserving 1000000000) = .ok parser ∧
        Reading.faithful.Reads (reserving 1000000000) parser) ↔
        Format.extended32.IsApplication (reserving 1000000000)) :=
  fromJson_faithful_iff (reserving_conforms 1000000000)

theorem reserving_fits {memory : UInt64} {parser : DAGParser}
    (kept : Reading.faithful.Reads (reserving memory) parser) : memory.toNat < UInt32.size := by
  obtain ⟨_, found, nodes⟩ := kept.nodes
  obtain rfl := Option.some.inj found
  obtain ⟨node, _, first, -, -⟩ := List.forall₂_cons_left_iff.mp nodes
  obtain ⟨_, found, container⟩ := first.container
  obtain rfl := Option.some.inj found
  obtain ⟨_, found, resources⟩ := container.resources
  obtain rfl := Option.some.inj found
  obtain ⟨_, found, same⟩ := resources.memory
  obtain rfl := Option.some.inj found
  have same : memory.toNat = node.container.resources.memory.toNat := Option.some.inj same
  exact same ▸ node.container.resources.memory.toNat_lt_size

/-- The four gibibytes are read as 0. -/
theorem four_gibibytes_altered : Format.extended.IsApplication (reserving 4294967296) ∧
    ¬ ∃ parser, fromJson (reserving 4294967296) = .ok parser ∧
      Reading.faithful.Reads (reserving 4294967296) parser := by
  refine ⟨reserving_conforms _, ?_⟩
  rintro ⟨parser, -, kept⟩
  exact absurd (reserving_fits kept) (by decide)

end DAGParser
end Iceflow
