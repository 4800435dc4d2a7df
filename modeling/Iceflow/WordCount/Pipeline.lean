import Iceflow.Foundation.Words
import Iceflow.Node.Callbacks
import Iceflow.WordCount

/-! The word count pipeline under any schedule: one source that splits a text into
lines, any number of instances that split lines into words, and one counter. Nodes run
any operations; only their callbacks and their direct pushes are those of the programs.
Measurements and printing are left out. -/
namespace Iceflow.WordCount

/-- `std::isspace` in the C locale. -/
def isspace (c : UInt8) : Bool := c = 32 || (9 ≤ c && c ≤ 13)

/-- `std::tolower` in the C locale. -/
def tolower (c : UInt8) : UInt8 := if 65 ≤ c && c ≤ 90 then c + 32 else c

def newline : UInt8 := 10

abbrev WordCountMap := AList (fun _ : Bytes => Int32)

/-- What `LineSplitter::text2lines` passes to `push`, in order. -/
def LineSplitter.text2lines (text : Bytes) : List Bytes := Words.lines newline text

/-- `WordSplitter::lines2words`, as the prosumer callback of its node. -/
def WordSplitter.lines2words {μ : Type} (downstreamEdgeName : String) : ProsumerCallback μ :=
  fun memory line producerCallback =>
    (Words.words isspace line).foldr
      (fun word next => producerCallback downstreamEdgeName word memory next) (.done memory)

/-- `wordCountMap[word]++` -/
def increment (wordCountMap : WordCountMap) (word : Bytes) : WordCountMap :=
  wordCountMap.insert word ((wordCountMap.lookup word).getD 0 + 1)

/-- `WordCounter::countWord` -/
def WordCounter.countWord (wordCountMap : WordCountMap) (words : Bytes) : WordCountMap :=
  (Words.words isspace words).foldl
    (fun wordCountMap word => increment wordCountMap (word.map tolower)) wordCountMap

/-- The callback of wordcount; its memory is the map. -/
def countWordCallback : ConsumerCallback WordCountMap :=
  fun wordCountMap data => .done (WordCounter.countWord wordCountMap data)

/-- How often a lower-cased word occurs in a text as a maximal run of bytes that are
not whitespace. -/
noncomputable def wordOccurrences (text word : Bytes) : Nat :=
  Words.occurrences isspace (List.map tolower) text word

theorem wordOccurrences_le (text word : Bytes) :
    wordOccurrences text word ≤ (Words.words isspace text).length := by
  rw [wordOccurrences, ← Words.count_words, ← List.length_map (List.map tolower)]
  exact List.count_le_length

theorem lookup_increments (words : List Bytes) (word : Bytes) :
    (words.foldl increment ∅).lookup word =
      if words.count word = 0 then none else some (Int32.ofNat (words.count word)) := by
  induction words using List.reverseRecOn with
  | nil => simp
  | append_singleton words last ih =>
    rw [List.foldl_append, List.foldl_cons, List.foldl_nil, increment, List.count_append]
    by_cases same : word = last
    · subst same
      rw [AList.lookup_insert, ih]
      have value : ((if words.count word = 0 then none
          else some (Int32.ofNat (words.count word))).getD 0 + 1 : Int32) =
          Int32.ofNat (words.count word + 1) := by
        rw [Int32.ofNat_add]
        split
        · rename_i zero
          rw [zero]
          rfl
        · rfl
      rw [value]
      simp
    · have absent : [last].count word = 0 := List.count_eq_zero.mpr (by simpa using same)
      rw [AList.lookup_insert_ne same, ih, absent, Nat.add_zero]

theorem countWord_word {text word : Bytes} (member : word ∈ Words.words isspace text)
    (wordCountMap : WordCountMap) :
    WordCounter.countWord wordCountMap word = increment wordCountMap (word.map tolower) := by
  rw [WordCounter.countWord, Words.words_word isspace member]
  rfl

/-- Items that are words, in any order, are counted as the words of the text. -/
theorem lookup_countWords {text : Bytes} {items : List Bytes}
    (once : items.Perm (Words.words isspace text)) (word : Bytes) :
    (items.foldl WordCounter.countWord ∅).lookup word =
      if wordOccurrences text word = 0 then none
      else some (Int32.ofNat (wordOccurrences text word)) := by
  have each : items.foldl WordCounter.countWord ∅ =
      (items.map (List.map tolower)).foldl increment ∅ := by
    rw [List.foldl_map]
    apply List.foldl_ext
    intro wordCountMap item member
    exact countWord_word (once.mem_iff.mp member) wordCountMap
  rw [each, lookup_increments, (once.map (List.map tolower)).count_eq, Words.count_words,
    wordOccurrences]

theorem answers_lines2words {μ : Type} (edge : String) :
    IceFlow.Answers (μ := μ) edge (Words.words isspace)
      (fun memory data => WordSplitter.lines2words edge memory data Script.push) := by
  intro memory data
  simp only [WordSplitter.lines2words]
  induction Words.words isspace data with
  | nil => exact ⟨rfl, rfl⟩
  | cons word rest ih =>
    rw [List.foldr_cons, Script.returns, Script.requests, List.map_cons]
    exact ⟨ih.1, by rw [ih.2]⟩

section
variable [Platform] {σ τ : Type}

structure Running (μ : Type) [Platform] where
  start : IceFlow μ
  constructed : start.Constructed
  ops : List (Op μ)

def Running.node {μ : Type} (r : Running μ) : IceFlow μ := r.start.run r.ops

/-- Nodes that run the three programs. The source pushes the lines of the text to the edge
of lines; each splitter registers `lines2words` and pushes nothing itself to the edge of
words; the counter registers `countWord` on an empty map. -/
structure Pipeline (σ τ : Type) (text : Bytes) [Platform] where
  lineEdge : String
  wordEdge : String
  source : Running σ
  splitters : List (Running τ)
  counter : Running WordCountMap
  source_edge : lineEdge ∈ source.start.iceflowProducers
  source_pushes : source.ops.filterMap (Op.pushes lineEdge) = LineSplitter.text2lines text
  source_registers : ∀ op ∈ source.ops, op.registers = none
  splitter_edge : ∀ splitter ∈ splitters, wordEdge ∈ splitter.start.iceflowProducers
  splitter_pushes : ∀ splitter ∈ splitters, ∀ op ∈ splitter.ops, op.pushes wordEdge = none
  splitter_registers : ∀ splitter ∈ splitters, ∀ op ∈ splitter.ops, op.registers.isSome →
    op = .call (.registerProsumerCallback lineEdge (WordSplitter.lines2words wordEdge))
  counter_registers : ∀ op ∈ counter.ops, op.registers.isSome →
    op = .call (.registerConsumerCallback wordEdge countWordCallback)
  counter_memory : counter.start.memory = ∅

namespace Pipeline
variable {text : Bytes}

/-- Every published line is handed to one callback of one splitter, every published word
to the counter, and nothing else is. -/
structure DeliversOnce (p : Pipeline σ τ text) : Prop where
  lines : (p.splitters.flatMap (fun splitter => splitter.node.invokedItems p.lineEdge)).Perm
    (p.source.node.pushedItems p.lineEdge)
  words : (p.counter.node.invokedItems p.wordEdge).Perm
    (p.splitters.flatMap (fun splitter => splitter.node.pushedItems p.wordEdge))

theorem source_published (p : Pipeline σ τ text) :
    (p.source.node.pushedData p.lineEdge).Perm (LineSplitter.text2lines text) := by
  have run : (p.source.node.pushedData p.lineEdge).Perm
      (p.source.ops.filterMap (Op.pushes p.lineEdge) ++
        (p.source.node.invokedItems p.lineEdge).flatMap (fun _ => [])) := by
    apply p.source.constructed.pushedData_run (f := fun _ => []) p.source_edge
    intro op member edge callback registered
    rw [p.source_registers op member] at registered
    cases registered
  rw [p.source_pushes, List.flatMap_eq_nil_iff.mpr (fun _ _ => rfl), List.append_nil] at run
  exact run

theorem splitter_published (p : Pipeline σ τ text) {splitter : Running τ}
    (member : splitter ∈ p.splitters) :
    (splitter.node.pushedData p.wordEdge).Perm
      ((splitter.node.invokedItems p.lineEdge).flatMap
        (fun item => Words.words isspace item.data)) := by
  have run : (splitter.node.pushedData p.wordEdge).Perm
      (splitter.ops.filterMap (Op.pushes p.wordEdge) ++
        (splitter.node.invokedItems p.lineEdge).flatMap
          (fun item => Words.words isspace item.data)) := by
    apply splitter.constructed.pushedData_run (p.splitter_edge splitter member)
    intro op listed edge callback registered
    obtain rfl := p.splitter_registers splitter member op listed (by simp [registered])
    cases registered
    exact ⟨rfl, answers_lines2words p.wordEdge⟩
  rw [List.filterMap_eq_nil_iff.mpr (p.splitter_pushes splitter member), List.nil_append] at run
  exact run

theorem counter_items (p : Pipeline σ τ text) (once : p.DeliversOnce) :
    ((p.counter.node.invokedItems p.wordEdge).map SubscriptionData.data).Perm
      (Words.words isspace text) := by
  have received : ((p.counter.node.invokedItems p.wordEdge).map SubscriptionData.data).Perm
      (p.splitters.flatMap (fun splitter => splitter.node.pushedData p.wordEdge)) := by
    have data := once.words.map SubscriptionData.data
    simp only [List.map_flatMap, IceFlow.data_pushedItems] at data
    exact data
  have split : (p.splitters.flatMap (fun splitter => splitter.node.pushedData p.wordEdge)).Perm
      ((p.splitters.flatMap (fun splitter => splitter.node.invokedItems p.lineEdge)).flatMap
        (fun item => Words.words isspace item.data)) := by
    rw [List.flatMap_assoc]
    exact List.Perm.flatMap_left _ (fun splitter member => p.splitter_published member)
  have lines : ((p.splitters.flatMap (fun splitter =>
      splitter.node.invokedItems p.lineEdge)).flatMap
        (fun item => Words.words isspace item.data)).Perm
      ((LineSplitter.text2lines text).flatMap (Words.words isspace)) := by
    have items := once.lines.flatMap_right (fun item => Words.words isspace item.data)
    have same : (p.source.node.pushedItems p.lineEdge).flatMap
        (fun item => Words.words isspace item.data) =
          (p.source.node.pushedData p.lineEdge).flatMap (Words.words isspace) := by
      rw [← IceFlow.data_pushedItems, List.flatMap_map]
    rw [same] at items
    exact items.trans (p.source_published.flatMap_right (Words.words isspace))
  have whole : (LineSplitter.text2lines text).flatMap (Words.words isspace) =
      Words.words isspace text := Words.words_of_lines isspace rfl text
  rw [← whole]
  exact received.trans (split.trans lines)

/-- The map of the counter, whatever the schedule: its keys are the lower-cased words of
the text, with the numbers of their occurrences. -/
theorem counts (p : Pipeline σ τ text) (once : p.DeliversOnce)
    (few : ∀ word, wordOccurrences text word < 2 ^ 31) (word : Bytes) :
    (p.counter.node.memory.lookup word).map Int32.toInt =
      if wordOccurrences text word = 0 then none
      else some (wordOccurrences text word : Int) := by
  have memory : p.counter.node.memory =
      (p.counter.node.invokedItems p.wordEdge).foldl
        (fun wordCountMap item => WordCounter.countWord wordCountMap item.data)
        p.counter.start.memory := by
    apply p.counter.constructed.memory_run
    intro op member edge callback registered
    obtain rfl := p.counter_registers op member (by simp [registered])
    cases registered
    exact ⟨rfl, fun _ _ => rfl⟩
  have folded : p.counter.node.memory = ((p.counter.node.invokedItems p.wordEdge).map
      SubscriptionData.data).foldl WordCounter.countWord ∅ := by
    rw [memory, p.counter_memory, List.foldl_map]
  rw [folded, lookup_countWords (p.counter_items once)]
  split
  · rfl
  · rw [Option.map_some, Int32.toInt_ofNat_of_lt (few word)]

end Pipeline

end

section
open scoped Iceflow.Reference

/-- "a B" and "A", without a newline at the end. -/
def twoLines : Bytes := [97, 32, 66, 10, 65]

def published (edge uuid : String) (seqNo : UInt64) (data : Bytes) : SubscriptionData :=
  ⟨Reference.components ["WordCount", edge] ++ [Platform.fromNumber 0],
    Reference.components ["node-WordCount", uuid], seqNo, data⟩

def lineSource : Running Unit :=
  ⟨firstSource, constructed_firstSource,
    (LineSplitter.text2lines twoLines).map (fun line => .call (.pushData "t2l" line))⟩

def splitterOps (seqNo : UInt64) (line : Bytes) : List (Op Unit) :=
  [.call (.registerProsumerCallback "t2l" (WordSplitter.lines2words "l2w")),
    .call (.repartitionConsumer "t2l" [0]),
    .deliver (Reference.handle 2) (published "t2l" "1" seqNo line) 0]

def lineSplitters : List (Running Unit) :=
  [⟨firstSplitter, constructed_firstSplitter, splitterOps 1 [97, 32, 66]⟩,
    ⟨secondSplitter, constructed_secondSplitter, splitterOps 2 [65]⟩]

def counterEnvironment : Environment WordCountMap := ⟨"5", fun _ => Stream'.const 0, fun _ => 0, ∅⟩

def firstCounter : IceFlow WordCountMap :=
  (IceFlow.construct dag "wordcount" counterEnvironment).toOption.get rfl

theorem constructed_firstCounter : firstCounter.Constructed :=
  ⟨dag, "wordcount", counterEnvironment, rfl⟩

/-- The word of the second line arrives first. -/
def counterOps : List (Op WordCountMap) :=
  [.call (.registerConsumerCallback "l2w" countWordCallback),
    .call (.repartitionConsumer "l2w" [0]),
    .deliver (Reference.handle 1) (published "l2w" "4" 1 [65]) 0,
    .deliver (Reference.handle 1) (published "l2w" "3" 1 [97]) 0,
    .deliver (Reference.handle 1) (published "l2w" "3" 2 [66]) 0]

def wordCounter : Running WordCountMap := ⟨firstCounter, constructed_firstCounter, counterOps⟩

theorem lineSource_items : lineSource.node.pushedItems "t2l" =
    [published "t2l" "1" 1 [97, 32, 66], published "t2l" "1" 2 [65]] := by decide

theorem lineSplitters_lines :
    lineSplitters.flatMap (fun splitter => splitter.node.invokedItems "t2l") =
      [published "t2l" "1" 1 [97, 32, 66], published "t2l" "1" 2 [65]] := by decide

theorem lineSplitters_words :
    lineSplitters.flatMap (fun splitter => splitter.node.pushedItems "l2w") =
      [published "l2w" "3" 1 [97], published "l2w" "3" 2 [66], published "l2w" "4" 1 [65]] := by
  decide

theorem wordCounter_words : wordCounter.node.invokedItems "l2w" =
    [published "l2w" "4" 1 [65], published "l2w" "3" 1 [97], published "l2w" "3" 2 [66]] := by
  decide

theorem lineSource_edge : "t2l" ∈ firstSource.iceflowProducers := by decide

theorem lineSplitters_edge : ∀ splitter ∈ lineSplitters,
    "l2w" ∈ splitter.start.iceflowProducers := by decide

def twoLinesPipeline : Pipeline Unit Unit twoLines where
  lineEdge := "t2l"
  wordEdge := "l2w"
  source := lineSource
  splitters := lineSplitters
  counter := wordCounter
  source_edge := lineSource_edge
  source_pushes := by decide
  source_registers := by simp [lineSource, Op.registers]
  splitter_edge := lineSplitters_edge
  splitter_pushes := by simp [lineSplitters, splitterOps, Op.pushes]
  splitter_registers := by simp [lineSplitters, splitterOps, Op.registers]
  counter_registers := by simp [wordCounter, counterOps, Op.registers]
  counter_memory := rfl

theorem twoLinesPipeline_deliversOnce : twoLinesPipeline.DeliversOnce where
  lines := by
    change (lineSplitters.flatMap (fun splitter => splitter.node.invokedItems "t2l")).Perm
      (lineSource.node.pushedItems "t2l")
    rw [lineSplitters_lines, lineSource_items]
  words := by
    change (wordCounter.node.invokedItems "l2w").Perm
      (lineSplitters.flatMap (fun splitter => splitter.node.pushedItems "l2w"))
    rw [wordCounter_words, lineSplitters_words]
    decide

theorem counts_twoLines :
    (twoLinesPipeline.counter.node.memory.lookup [97]).map Int32.toInt =
      if wordOccurrences twoLines [97] = 0 then none
      else some (wordOccurrences twoLines [97] : Int) := by
  apply twoLinesPipeline.counts twoLinesPipeline_deliversOnce
  intro word
  exact lt_of_le_of_lt (wordOccurrences_le twoLines word) (by decide)

end
end Iceflow.WordCount
