import Iceflow.Network.ExactlyOnce
import Iceflow.Node.Wiring
import Iceflow.WordCount.Instances
import Iceflow.WordCount.Programs

/-! The word count application as it is deployed: one process of text2lines, any number of
lines2words and one of wordcount, on the nodes that they construct from one DAG, with the
pub/sub between them. Calls and hand-overs come in any order. -/
namespace Iceflow.WordCount
open IceFlow Network Tiling

inductive Role (k : Nat) where
  | source
  | splitter (i : Fin k)
  | counter
  deriving DecidableEq

namespace Role
variable {k : Nat}

def all (k : Nat) : List (Role k) := .source :: .counter :: (List.finRange k).map .splitter

theorem nodup_all : (all k).Nodup := by
  have distinct : ((List.finRange k).map Role.splitter).Nodup :=
    (List.nodup_finRange k).map (fun _ _ => Role.splitter.inj)
  simp [all, distinct]

theorem mem_all (role : Role k) : role ∈ all k := by
  cases role <;> simp [all]

def nodeName : Role k → String
  | .source => "text2lines"
  | .splitter _ => "lines2words"
  | .counter => "wordcount"

def upstream (lineEdge wordEdge : Edge) : Role k → List Edge
  | .source => []
  | .splitter _ => [lineEdge]
  | .counter => [wordEdge]

def downstream (lineEdge wordEdge : Edge) : Role k → List Edge
  | .source => [lineEdge]
  | .splitter _ => [wordEdge]
  | .counter => []

end Role

section
variable [Platform] {k : Nat} {text : Bytes}

/-- In the DAG the three programs form a chain of two edges with names of their own, and the
second edge has one partition. -/
structure Chain (dagParser : DAGParser) (lineEdge wordEdge : Edge) : Prop where
  nodes : ∀ role : Role 1, ∃ node, dagParser.findNodeByName role.nodeName = .ok node ∧
    node.downstream = role.downstream lineEdge wordEdge ∧
    (dagParser.findUpstreamEdges node.task).map Prod.snd = role.upstream lineEdge wordEdge
  different : lineEdge.id ≠ wordEdge.id
  lines : Separated dagParser.applicationName lineEdge.id wordEdge.id
  words : Separated dagParser.applicationName wordEdge.id lineEdge.id
  onePartition : wordEdge.maxPartitions = 1

/-- The processes with what they were started with and what happened. Every process has got to
its event loop, and text2lines has read its file. Two instances of lines2words have the
numbers 0 and 1, others only numbers above every partition. -/
structure Deployment (k : Nat) (text : Bytes) [Platform] where
  dagParser : DAGParser
  lineEdge : Edge
  wordEdge : Edge
  chain : Chain dagParser lineEdge wordEdge
  files : String → Option Bytes
  environment : Role k → Environment WordCountMap
  memory : (environment .counter).memory = ∅
  numbers : Fin k → Nat
  numberOfInstances : Nat
  shared : ∃ i j, numbers i = 0 ∧ numbers j = 1 ∧
    ∀ l, l ≠ i → l ≠ j → lineEdge.maxPartitions.toNat < numbers l
  start : Role k → IceFlow WordCountMap
  calls : Role k → List (Call WordCountMap)
  source : Text2lines.run files dagParser "text2lines" (environment .source) =
    .ok (start .source, calls .source)
  splitter : ∀ i, ∃ fuel, Lines2words.main fuel dagParser (environment (.splitter i)) (numbers i)
    numberOfInstances = some (.ok (start (.splitter i), calls (.splitter i)))
  counter : Wordcount.run dagParser "wordcount" (environment .counter) =
    .ok (start .counter, calls .counter)
  readable : ∃ fileName, (start .source).getApplicationParameter Json.getString
    "sourceTextFileName" = some fileName ∧ files fileName = some text
  actions : List (Action (Role k) WordCountMap)
  called : ∀ role, callsOf role actions = calls role

namespace Deployment

theorem construct_ends {μ : Type} {dagParser : DAGParser} {nodeName : String}
    {environment : Environment μ} {n : IceFlow μ}
    (built : construct dagParser nodeName environment = .ok n) {node : Node}
    (found : dagParser.findNodeByName nodeName = .ok node) :
    n.node = node ∧ n.downstreamEdges = node.downstream ∧
      n.upstreamEdges = (dagParser.findUpstreamEdges node.task).map Prod.snd ∧
      n.memory = environment.memory := by
  simp only [construct, Results.bind_ok, Results.pure_ok] at built
  obtain ⟨node', found', _, _, _, _, ⟨producers, svs⟩, _, rfl⟩ := built
  obtain rfl := Except.ok.inj (found.symm.trans found')
  exact ⟨rfl, rfl, rfl, rfl⟩

variable (d : Deployment k text)

theorem built (role : Role k) :
    construct d.dagParser role.nodeName (d.environment role) = .ok (d.start role) := by
  cases role with
  | source => exact (Text2lines.run_ok d.source).1
  | splitter i =>
    obtain ⟨fuel, started⟩ := d.splitter i
    exact (Lines2words.main_ok started).1
  | counter => exact (Wordcount.run_ok d.counter).1

theorem constructed (role : Role k) : (d.start role).Constructed :=
  ⟨d.dagParser, role.nodeName, d.environment role, d.built role⟩

theorem ends (role : Role k) : (d.start role).node.downstream =
      role.downstream d.lineEdge d.wordEdge ∧
    (d.start role).downstreamEdges = role.downstream d.lineEdge d.wordEdge ∧
    (d.start role).upstreamEdges = role.upstream d.lineEdge d.wordEdge ∧
    (d.dagParser.findUpstreamEdges (d.start role).node.task).map Prod.snd =
      role.upstream d.lineEdge d.wordEdge := by
  have named : ∃ node, d.dagParser.findNodeByName role.nodeName = .ok node ∧
      node.downstream = role.downstream d.lineEdge d.wordEdge ∧
      (d.dagParser.findUpstreamEdges node.task).map Prod.snd =
        role.upstream d.lineEdge d.wordEdge := by
    cases role with
    | source => exact d.chain.nodes .source
    | splitter i => exact d.chain.nodes (.splitter 0)
    | counter => exact d.chain.nodes .counter
  obtain ⟨node, found, down, up⟩ := named
  obtain ⟨same, downstream, upstream, _⟩ := construct_ends (d.built role) found
  rw [same, downstream, upstream]
  exact ⟨down, down, up, up⟩

theorem mem_producers (role : Role k) (id : String) : id ∈ (d.start role).iceflowProducers ↔
    ∃ edge ∈ role.downstream d.lineEdge d.wordEdge, edge.id = id := by
  rw [(construct_fresh (d.built role)).mem_producers, (d.ends role).1]

theorem mem_consumers (role : Role k) (id : String) : id ∈ (d.start role).iceflowConsumers ↔
    ∃ edge ∈ role.upstream d.lineEdge d.wordEdge, edge.id = id := by
  rw [(construct_fresh (d.built role)).consumers, mem_constructConsumers, (d.ends role).2.2.2]

theorem syncPrefix (role : Role k) : (d.start role).syncPrefix = d.dagParser.applicationName :=
  (construct_fresh (d.built role)).syncPrefix

theorem producer_of {role : Role k} {id : String} {producer : IceflowProducer}
    (found : (d.start role).iceflowProducers.lookup id = some producer) :
    ∃ edge ∈ role.downstream d.lineEdge d.wordEdge, edge.id = id ∧
      producer.numberOfPartitions = edge.maxPartitions := by
  rw [← (d.ends role).1]
  rcases (construct_fresh (d.built role)).producers.built id producer found with none | made
  · simp at none
  · obtain ⟨edge, member, named, identity⟩ := made
    exact ⟨edge, member, named, congrArg (fun identity => identity.2.2.2.1) identity⟩

theorem source_calls : d.calls .source =
    (LineSplitter.text2lines text).map (fun line => .pushData d.lineEdge.id line) := by
  obtain ⟨_, edge, fileName, first, named, made⟩ := Text2lines.run_ok d.source
  obtain ⟨fileName', named', opened⟩ := d.readable
  rw [(d.ends .source).2.1] at first
  obtain rfl := Option.some.inj first
  obtain rfl := Option.some.inj (named.symm.trans named')
  rw [made, opened]
  rfl

theorem splitter_calls (i : Fin k) : ∃ partitions,
    Repartitions d.lineEdge (WordSplitter.lines2words (μ := WordCountMap) d.wordEdge.id)
      (d.numbers i) d.numberOfInstances partitions ∧
    d.calls (.splitter i) = [.registerProsumerCallback d.lineEdge.id
        (WordSplitter.lines2words d.wordEdge.id),
      .repartitionConsumer d.lineEdge.id partitions] := by
  obtain ⟨fuel, started⟩ := d.splitter i
  obtain ⟨_, upstreamEdge, downstreamEdge, partitions, up, down, passes, made⟩ :=
    Lines2words.main_ok started
  rw [(d.ends (.splitter i)).2.2.1] at up
  rw [(d.ends (.splitter i)).2.1] at down
  obtain rfl := Option.some.inj up
  obtain rfl := Option.some.inj down
  exact ⟨partitions, passes, made⟩

theorem counter_calls : d.calls .counter =
    [.registerConsumerCallback d.wordEdge.id countWordCallback,
      .repartitionConsumer d.wordEdge.id [0]] := by
  obtain ⟨_, edge, up, made⟩ := Wordcount.run_ok d.counter
  rw [(d.ends .counter).2.2.1] at up
  obtain rfl := Option.some.inj up
  exact made

abbrev ops (role : Role k) : List (Op WordCountMap) := operationsOf d.start d.actions role

theorem called_ops (role : Role k) : (d.ops role).filterMap Op.called = d.calls role :=
  (called_operationsOf d.start d.actions role).trans (d.called role)

theorem calls_of_mem {role : Role k} {c : Call WordCountMap} (member : .call c ∈ d.ops role) :
    c ∈ d.calls role := by
  rw [← d.called_ops role]
  exact List.mem_filterMap.mpr ⟨_, member, rfl⟩

theorem prepared (id : String) (role : Role k) : Prepared id (callsOf role d.actions) := by
  rw [d.called role]
  cases role with
  | source =>
    rw [d.source_calls]
    exact prepared_of_pushes id (by simp)
  | splitter i =>
    obtain ⟨_, _, made⟩ := d.splitter_calls i
    rw [made]
    exact prepared_of_registered id rfl
  | counter =>
    rw [d.counter_calls]
    exact prepared_of_registered id rfl

theorem known (role : Role k) {id : String} {partitions : List UInt32}
    (called : .repartitionConsumer id partitions ∈ callsOf role d.actions) :
    id ∈ (d.start role).iceflowConsumers := by
  rw [d.called role] at called
  rw [d.mem_consumers]
  cases role with
  | source =>
    rw [d.source_calls] at called
    simp at called
  | splitter i =>
    obtain ⟨_, _, made⟩ := d.splitter_calls i
    rw [made] at called
    simp only [List.mem_cons, reduceCtorEq, Call.repartitionConsumer.injEq, false_or,
      List.not_mem_nil, or_false] at called
    exact ⟨d.lineEdge, List.mem_cons_self, called.1.symm⟩
  | counter =>
    rw [d.counter_calls] at called
    simp only [List.mem_cons, reduceCtorEq, Call.repartitionConsumer.injEq, false_or,
      List.not_mem_nil, or_false] at called
    exact ⟨d.wordEdge, List.mem_cons_self, called.1.symm⟩

theorem apart (role : Role k) (id : String) (consumes : id ∈ (d.start role).iceflowConsumers) :
    id ∉ (d.start role).iceflowProducers := by
  rw [d.mem_consumers] at consumes
  rw [d.mem_producers]
  rintro ⟨edge, member, rfl⟩
  obtain ⟨edge', member', same⟩ := consumes
  have different := d.chain.different
  cases role with
  | source => cases member'
  | splitter i =>
    rw [List.mem_singleton.mp member, List.mem_singleton.mp member'] at same
    exact different same
  | counter => cases member

theorem ids {role : Role k} {id : String} (used : id ∈ (d.start role).iceflowProducers ∨
    id ∈ (d.start role).iceflowConsumers) : id = d.lineEdge.id ∨ id = d.wordEdge.id := by
  rw [d.mem_producers, d.mem_consumers] at used
  cases role <;> simp [Role.upstream, Role.downstream] at used <;> grind

theorem tiles_lines : Tiles (fun p => p < d.lineEdge.maxPartitions)
    (fun role => lastPartitions d.lineEdge.id ((d.calls role).map Op.call)) := by
  have different := d.chain.different
  choose lists passes made using d.splitter_calls
  obtain ⟨i, j, zero, one, others⟩ := d.shared
  apply (instances_tile passes zero one others).extend Role.splitter
  · intro i
    rw [made]
    simp [lastPartitions, nextPartitions]
  · intro role
    cases role with
    | splitter i => exact Or.inl ⟨i, rfl⟩
    | source =>
      rw [d.source_calls]
      exact Or.inr (lastPartitions_of_none (by simp [Op.repartitionsConsumer]))
    | counter =>
      rw [d.counter_calls]
      exact Or.inr (lastPartitions_of_none (by simp [Op.repartitionsConsumer, different.symm]))

theorem tiles_words : Tiles (fun p => p < d.wordEdge.maxPartitions)
    (fun role => lastPartitions d.wordEdge.id ((d.calls role).map Op.call)) := by
  have different := d.chain.different
  have single : Tiles (fun p => p < d.wordEdge.maxPartitions) (fun _ : Unit => [0]) := by
    refine ⟨fun _ => List.nodup_singleton 0, fun _ _ _ _ _ => rfl, fun p below => ⟨(), ?_⟩⟩
    rw [d.chain.onePartition] at below
    have below := UInt32.lt_iff_toNat_lt.mp below
    change p.toNat < 1 at below
    exact List.mem_singleton.mpr (UInt32.toNat_inj.mp (by change _ = 0; omega))
  apply single.extend (fun _ => Role.counter)
  · intro _
    rw [d.counter_calls]
    simp [lastPartitions, nextPartitions]
  · intro role
    cases role with
    | counter => exact Or.inl ⟨(), rfl⟩
    | source =>
      rw [d.source_calls]
      exact Or.inr (lastPartitions_of_none (by simp [Op.repartitionsConsumer]))
    | splitter i =>
      obtain ⟨_, _, made⟩ := d.splitter_calls i
      rw [made]
      exact Or.inr (lastPartitions_of_none (by simp [Op.repartitionsConsumer, different]))

theorem exchange {edge : Edge} (used : edge = d.lineEdge ∨ edge = d.wordEdge)
    (separated : ∀ e, e ≠ edge.id → e = d.lineEdge.id ∨ e = d.wordEdge.id →
      Separated d.dagParser.applicationName edge.id e)
    (tiles : Tiles (fun p => p < edge.maxPartitions)
      (fun role => lastPartitions edge.id ((d.calls role).map Op.call))) :
    Exchange edge.id d.start d.actions := by
  have different := d.chain.different
  apply Exchange.of_calls d.constructed
  case application => exact fun i j => (d.syncPrefix i).trans (d.syncPrefix j).symm
  case prepared => exact d.prepared edge.id
  case known => exact fun i _ => d.known i
  case apart => exact fun i => d.apart i edge.id
  case separated => exact fun i e other used => d.syncPrefix i ▸ separated e other (d.ids used)
  case tiles =>
    simp only [d.called]
    apply tiles.mono
    rintro p ⟨role, producer, found, below⟩
    obtain ⟨made, member, named, number⟩ := d.producer_of found
    rw [number] at below
    cases role <;> rcases used with rfl | rfl <;> simp_all [Role.downstream]

theorem exchange_lines : Exchange d.lineEdge.id d.start d.actions := by
  refine d.exchange (Or.inl rfl) ?_ d.tiles_lines
  rintro e other (rfl | rfl)
  · contradiction
  · exact d.chain.lines

theorem exchange_words : Exchange d.wordEdge.id d.start d.actions := by
  refine d.exchange (Or.inr rfl) ?_ d.tiles_words
  rintro e other (rfl | rfl)
  · exact d.chain.words
  · contradiction

def running (role : Role k) : Running WordCountMap :=
  ⟨d.start role, d.constructed role, d.ops role⟩

theorem node_running (role : Role k) :
    (d.running role).node = Network.run d.start d.actions role :=
  (run_node d.start d.actions role).symm

theorem pushedItems_eq_nil {role : Role k} {id : String}
    (unknown : id ∉ (d.start role).iceflowProducers) :
    (d.running role).node.pushedItems id = [] := by
  rw [pushedItems, List.filterMap_eq_nil_iff]
  rintro ⟨publication, index⟩ member
  rw [if_neg]
  intro source
  have filed := (d.constructed role).run_logged (d.ops role) publication
    (List.mem_of_getElem? (List.mem_zipIdx_iff_getElem?.mp member))
  rw [Filed, source] at filed
  obtain ⟨producer, _, found, _⟩ := filed
  obtain ⟨old, found', _⟩ := StringMap.exists_of_map_eq
    (((d.constructed role).run_producers (d.ops role)).2 id) found
  exact unknown (StringMap.mem_of_lookup found')

theorem invokedItems_eq_nil {role : Role k} {id : String}
    (unknown : id ∉ (d.start role).iceflowConsumers) :
    (d.running role).node.invokedItems id = [] := by
  refine ((d.constructed role).unserved (fun op member => ?_)).2
  cases op with
  | deliver handle item now => rfl
  | call c =>
    cases c with
    | repartitionConsumer e partitions =>
      refine decide_eq_false fun same => unknown ?_
      rw [← same]
      exact d.known role (d.called role ▸ d.calls_of_mem member)
    | _ => rfl

theorem registers_of_mem {role : Role k} {op : Op WordCountMap} (member : op ∈ d.ops role)
    (registers : op.registers.isSome) :
    ∃ c ∈ d.calls role, op = .call c := by
  cases op with
  | deliver handle item now => simp [Op.registers] at registers
  | call c => exact ⟨c, d.calls_of_mem member, rfl⟩

theorem pushes_ops (role : Role k) (id : String) : (d.ops role).filterMap (Op.pushes id) =
    (d.calls role).filterMap (fun c => (Op.call c).pushes id) := by
  rw [← d.called_ops role, List.filterMap_filterMap]
  apply List.filterMap_congr
  rintro (c | _) _ <;> rfl

def pipeline : Pipeline WordCountMap WordCountMap text where
  lineEdge := d.lineEdge.id
  wordEdge := d.wordEdge.id
  source := d.running .source
  splitters := (List.finRange k).map (fun i => d.running (.splitter i))
  counter := d.running .counter
  source_edge := (d.mem_producers .source _).mpr ⟨d.lineEdge, List.mem_cons_self, rfl⟩
  source_pushes := by
    change (d.ops .source).filterMap (Op.pushes d.lineEdge.id) = _
    rw [d.pushes_ops, d.source_calls]
    simp [List.filterMap_map, Op.pushes]
  source_registers := by
    intro op member
    by_contra registers
    obtain ⟨c, called, rfl⟩ := d.registers_of_mem member (Option.isSome_iff_ne_none.mpr registers)
    rw [d.source_calls] at called
    obtain ⟨line, _, rfl⟩ := List.mem_map.mp called
    exact registers rfl
  splitter_edge := by
    intro splitter member
    obtain ⟨i, _, rfl⟩ := List.mem_map.mp member
    exact (d.mem_producers (.splitter i) _).mpr ⟨d.wordEdge, List.mem_cons_self, rfl⟩
  splitter_pushes := by
    intro splitter member op happened
    obtain ⟨i, _, rfl⟩ := List.mem_map.mp member
    obtain ⟨partitions, _, made⟩ := d.splitter_calls i
    have none : (d.ops (.splitter i)).filterMap (Op.pushes d.wordEdge.id) = [] := by
      rw [d.pushes_ops, made]
      rfl
    exact List.filterMap_eq_nil_iff.mp none op happened
  splitter_registers := by
    intro splitter member op happened registers
    obtain ⟨i, _, rfl⟩ := List.mem_map.mp member
    obtain ⟨c, called, rfl⟩ := d.registers_of_mem happened registers
    obtain ⟨partitions, _, made⟩ := d.splitter_calls i
    rw [made] at called
    rcases List.mem_pair.mp called with rfl | rfl
    · rfl
    · simp [Op.registers] at registers
  counter_registers := by
    intro op member registers
    obtain ⟨c, called, rfl⟩ := d.registers_of_mem member registers
    rw [d.counter_calls] at called
    rcases List.mem_pair.mp called with rfl | rfl
    · rfl
    · simp [Op.registers] at registers
  counter_memory := by
    obtain ⟨node, found, _⟩ := d.chain.nodes .counter
    exact (construct_ends (d.built .counter) found).2.2.2.trans d.memory

theorem counter_folds : (d.running .counter).node.memory =
    (((d.running .counter).node.invokedItems d.wordEdge.id).map SubscriptionData.data).foldl
      WordCounter.countWord ∅ := by
  rw [List.foldl_map, ← d.pipeline.counter_memory]
  apply (d.running .counter).constructed.memory_run
  intro op member edge callback registered
  obtain rfl := d.pipeline.counter_registers op member (by simp [registered])
  cases registered
  exact ⟨rfl, fun _ _ => rfl⟩

/-- What is exchanged over an edge, by the processes that use it. -/
theorem all_flatMap (f : Role k → List SubscriptionData) : (Role.all k).flatMap f =
    f .source ++ (f .counter ++ (List.finRange k).flatMap (fun i => f (.splitter i))) := by
  rw [Role.all, List.flatMap_cons, List.flatMap_cons, List.flatMap_map]

/-- Delivery between the processes is delivery in the pipeline. -/
theorem deliversOnce (once : ExactlyOnce d.start d.actions) : d.pipeline.DeliversOnce := by
  have received {id : String} (exchange : Exchange id d.start d.actions) :
      ((Role.all k).flatMap (fun role => (d.running role).node.invokedItems id)).Perm
        ((Role.all k).flatMap (fun role => (d.running role).node.pushedItems id)) := by
    simp only [d.node_running]
    exact exchange.received_perm once Role.nodup_all Role.mem_all
  have different := d.chain.different
  have different' := different.symm
  constructor
  · have consumed (role : Role k) (other : ∀ i, role ≠ .splitter i) :
        (d.running role).node.invokedItems d.lineEdge.id = [] := by
      refine d.invokedItems_eq_nil ?_
      rw [d.mem_consumers]
      cases role <;> simp_all [Role.upstream]
    have produced (role : Role k) (other : role ≠ .source) :
        (d.running role).node.pushedItems d.lineEdge.id = [] := by
      refine d.pushedItems_eq_nil ?_
      rw [d.mem_producers]
      cases role <;> simp_all [Role.downstream]
    have lines := received d.exchange_lines
    rw [all_flatMap, all_flatMap, consumed .source (by simp), consumed .counter (by simp),
      produced .counter (by simp),
      List.flatMap_eq_nil_iff.mpr (fun i _ => produced (.splitter i) (by simp))] at lines
    simpa [pipeline, List.flatMap_map] using lines
  · have consumed (role : Role k) (other : role ≠ .counter) :
        (d.running role).node.invokedItems d.wordEdge.id = [] := by
      refine d.invokedItems_eq_nil ?_
      rw [d.mem_consumers]
      cases role <;> simp_all [Role.upstream]
    have produced (role : Role k) (other : ∀ i, role ≠ .splitter i) :
        (d.running role).node.pushedItems d.wordEdge.id = [] := by
      refine d.pushedItems_eq_nil ?_
      rw [d.mem_producers]
      cases role <;> simp_all [Role.downstream]
    have words := received d.exchange_words
    rw [all_flatMap, all_flatMap, consumed .source (by simp), produced .source (by simp),
      produced .counter (by simp),
      List.flatMap_eq_nil_iff.mpr (fun i _ => consumed (.splitter i) (by simp))] at words
    simpa [pipeline, List.flatMap_map] using words

/-- If the pub/sub delivers exactly once, then whatever the order of calls and hand-overs the
map of wordcount has the lower-cased words of the text with the numbers of their
occurrences. -/
theorem words_counted (once : ExactlyOnce d.start d.actions)
    (few : ∀ word, wordOccurrences text word < 2 ^ 31) (word : Bytes) :
    ((Network.run d.start d.actions .counter).memory.lookup word).map Int32.toInt =
      if wordOccurrences text word = 0 then none
      else some (wordOccurrences text word : Int) := by
  have items : (((d.running .counter).node.invokedItems d.wordEdge.id).map
      SubscriptionData.data).Perm (Words.words isspace text) :=
    d.pipeline.counter_items (d.deliversOnce once)
  rw [← d.node_running, d.counter_folds, lookup_countWords items]
  by_cases missing : wordOccurrences text word = 0
  · rw [if_pos missing, if_pos missing, Option.map_none]
  · rw [if_neg missing, if_neg missing, Option.map_some, Int32.toInt_ofNat_of_lt (few word)]

end Deployment
end

section
open scoped Iceflow.Reference

/-- "a" and "A". -/
def twoWords : Bytes := [97, 10, 65]

def firstInstance : Fin 2 := 0

def otherInstance : Fin 2 := 1

/-- Generators that count from zero. -/
def counting : Role 2 → Environment WordCountMap
  | .source => ⟨"1", fun _ => UInt32.ofNat, fun _ => 0, ∅⟩
  | .splitter i => ⟨if i = 0 then "2" else "3", fun _ => UInt32.ofNat, fun _ => 0, ∅⟩
  | .counter => ⟨"4", fun _ => UInt32.ofNat, fun _ => 0, ∅⟩

theorem processes_built : ∀ role : Role 2,
    (IceFlow.construct dag role.nodeName (counting role)).toOption.isSome = true
  | .source => rfl
  | .splitter 0 => rfl
  | .splitter 1 => rfl
  | .counter => rfl

def processes (role : Role 2) : IceFlow WordCountMap :=
  (IceFlow.construct dag role.nodeName (counting role)).toOption.get (processes_built role)

def processCalls : Role 2 → List (Call WordCountMap)
  | .source => [.pushData "t2l" [97], .pushData "t2l" [65]]
  | .splitter i => [.registerProsumerCallback "t2l" (WordSplitter.lines2words "l2w"),
      .repartitionConsumer "t2l" (if i = 0 then [0, 2] else [1, 3])]
  | .counter => [.registerConsumerCallback "l2w" countWordCallback, .repartitionConsumer "l2w" [0]]

def called : List (Role 2 × Call WordCountMap) :=
  (Role.all 2).flatMap (fun role => (processCalls role).map (fun c => (role, c)))

def lineTo (i : Fin 2) (index : Nat) : HandOver (Role 2) :=
  ⟨.splitter i, Reference.handle 2, .source, index⟩

def wordOf (i : Fin 2) (index : Nat) : HandOver (Role 2) :=
  ⟨.counter, Reference.handle 1, .splitter i, index⟩

def lineDone (i : Fin 2) (index : Nat) : HandOver (Role 2) :=
  ⟨.source, Reference.handle 1, .splitter i, index⟩

/-- Acknowledgements of words reach all instances of lines2words. -/
def wordDone (i : Fin 2) (index : Nat) : HandOver (Role 2) :=
  ⟨.splitter i, Reference.handle 1, .counter, index⟩

/-- The second line is the first to be split and counted. -/
def handedOver : List (HandOver (Role 2)) :=
  [lineTo otherInstance 1, wordOf otherInstance 0, lineTo firstInstance 0, wordOf firstInstance 0,
    lineDone firstInstance 1, lineDone otherInstance 1, wordDone firstInstance 0,
    wordDone firstInstance 1, wordDone otherInstance 0, wordDone otherInstance 1]

def processActions : List (Action (Role 2) WordCountMap) :=
  called.map (fun x => .call x.1 x.2) ++
    handedOver.map (fun h => .deliver h.receiver h.handle h.sender h.index 0)

def secondLine : SubscriptionData :=
  { published "t2l" "1" 2 [65] with
    name := Reference.components ["WordCount", "t2l"] ++ [Platform.fromNumber 1] }

def acknowledgement (edge uuid : String) (seqNo : UInt64) (data : Bytes) : SubscriptionData :=
  { published edge uuid seqNo data with
    name := Reference.components ["WordCount", edge, "backchannel"] }

theorem exactlyOnce_processes : ExactlyOnce processes processActions := by
  have follows := Follows.calls processes called
  have follows := follows.deliver (lineTo 1 1) (by decide) secondLine (by decide) (by decide) 0
  have follows := follows.deliver (wordOf 1 0) (by decide) (published "l2w" "3" 1 [65])
    (by decide) (by decide) 0
  have follows := follows.deliver (lineTo 0 0) (by decide) (published "t2l" "1" 1 [97])
    (by decide) (by decide) 0
  have follows := follows.deliver (wordOf 0 0) (by decide) (published "l2w" "2" 1 [97])
    (by decide) (by decide) 0
  have follows := follows.deliver (lineDone 0 1) (by decide) (acknowledgement "t2l" "2" 2 [49])
    (by decide) (by decide) 0
  have follows := follows.deliver (lineDone 1 1) (by decide) (acknowledgement "t2l" "3" 2 [50])
    (by decide) (by decide) 0
  have follows := follows.deliver (wordDone 0 0) (by decide) (acknowledgement "l2w" "4" 1 [49])
    (by decide) (by decide) 0
  have follows := follows.deliver (wordDone 0 1) (by decide) (acknowledgement "l2w" "4" 2 [49])
    (by decide) (by decide) 0
  have follows := follows.deliver (wordDone 1 0) (by decide) (acknowledgement "l2w" "4" 1 [49])
    (by decide) (by decide) 0
  have follows := follows.deliver (wordDone 1 1) (by decide) (acknowledgement "l2w" "4" 2 [49])
    (by decide) (by decide) 0
  exact follows.exactlyOnce (Role.all 2) Role.mem_all (by decide) (by decide)

/-- Two instances of lines2words, numbered 0 and 1, in the shipped application. -/
def processDeployment : Deployment 2 twoWords where
  dagParser := dag
  lineEdge := ⟨"t2l", "2", 3, []⟩
  wordEdge := ⟨"l2w", "3", 1, []⟩
  chain := {
    nodes := fun role => match role with
      | .source => ⟨_, rfl, rfl, rfl⟩
      | .splitter _ => ⟨_, rfl, rfl, rfl⟩
      | .counter => ⟨_, rfl, rfl, rfl⟩
    different := by decide
    lines := .of_length_eq lineTopic_parsed wordTopic_parsed (by decide) rfl
    words := .of_length_eq wordTopic_parsed lineTopic_parsed (by decide) rfl
    onePartition := rfl }
  files _ := some twoWords
  environment := counting
  memory := rfl
  numbers i := i
  numberOfInstances := 2
  shared := ⟨0, 1, rfl, rfl, by decide⟩
  start := processes
  calls := processCalls
  source := rfl
  splitter := fun i => match i with
    | 0 => ⟨4, rfl⟩
    | 1 => ⟨4, rfl⟩
  counter := rfl
  readable := ⟨"sourcetext.txt", rfl, rfl⟩
  actions := processActions
  called := fun role => match role with
    | .source => rfl
    | .splitter 0 => rfl
    | .splitter 1 => rfl
    | .counter => rfl

theorem words_counted_processes :
    ((Network.run processes processActions .counter).memory.lookup [97]).map Int32.toInt =
      if wordOccurrences twoWords [97] = 0 then none
      else some (wordOccurrences twoWords [97] : Int) := by
  apply processDeployment.words_counted exactlyOnce_processes
  intro word
  exact lt_of_le_of_lt (wordOccurrences_le twoWords word) (by decide)

end
end Iceflow.WordCount
