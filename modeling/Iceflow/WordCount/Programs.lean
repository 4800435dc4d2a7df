import Iceflow.Node.Parameters
import Iceflow.WordCount.ConsumerPartitions
import Iceflow.WordCount.Pipeline

/-! The `run` functions of the three programs: the node that each constructs from the DAG and
the calls that it makes on the node. They are built without gRPC; measurements and printing
are left out. -/
namespace Iceflow.WordCount

variable [Platform] {μ : Type}

def constructs (dagParser : DAGParser) (nodeName : String) (environment : Environment μ) :
    Except ProgramError (IceFlow μ) :=
  (IceFlow.construct dagParser nodeName environment).mapError .library

def measurementsSaveThreshold (n : IceFlow μ) : Except ProgramError UInt64 :=
  optionalValue (n.getApplicationParameter Json.getUInt64 "measurementsSaveThreshold")

/-- `run` of text2lines. The calls are those of the thread that reads the file, which are
none if the file cannot be opened. -/
def Text2lines.run (files : String → Option Bytes) (dagParser : DAGParser) (nodeName : String)
    (environment : Environment μ) : Except ProgramError (IceFlow μ × List (Call μ)) := do
  let iceflow ← constructs dagParser nodeName environment
  let downstreamEdgeName := (← optionalValue (← iceflow.getDownstreamEdge 0)).id
  let _saveThreshold ← measurementsSaveThreshold iceflow
  let sourceTextFileName ←
    optionalValue (iceflow.getApplicationParameter Json.getString "sourceTextFileName")
  let lines := ((files sourceTextFileName).map LineSplitter.text2lines).getD []
  return (iceflow, lines.map (fun line => .pushData downstreamEdgeName line))

/-- `run` of lines2words; `none` where `fuel` rounds do not end the loop over partitions. -/
def Lines2words.run (fuel : Nat) (dagParser : DAGParser) (nodeName : String)
    (environment : Environment μ) (consumerIndex numberOfConsumers : UInt32) :
    Option (Except ProgramError (IceFlow μ × List (Call μ))) :=
  let edges : Except ProgramError (IceFlow μ × Edge × String) := do
    let iceflow ← constructs dagParser nodeName environment
    let upstreamEdge ← optionalValue (← iceflow.getUpstreamEdge 0)
    let downstreamEdgeName := (← optionalValue (← iceflow.getDownstreamEdge 0)).id
    return (iceflow, upstreamEdge, downstreamEdgeName)
  match edges with
  | .error e => some (.error e)
  | .ok (iceflow, upstreamEdge, downstreamEdgeName) =>
    (WordCount.run fuel upstreamEdge (WordSplitter.lines2words downstreamEdgeName) consumerIndex
      numberOfConsumers).map (fun calls => do
        let _saveThreshold ← measurementsSaveThreshold iceflow
        return (iceflow, calls))

def Lines2words.main (fuel : Nat) (dagParser : DAGParser) (environment : Environment μ)
    (instanceNumber numberOfInstances : Nat) :
    Option (Except ProgramError (IceFlow μ × List (Call μ))) :=
  match stoi instanceNumber, stoi numberOfInstances with
  | some consumerIndex, some numberOfConsumers =>
    run fuel dagParser "lines2words" environment consumerIndex.toUInt32 numberOfConsumers.toUInt32
  | _, _ => some (.error .outOfRange)

def Wordcount.run (dagParser : DAGParser) (nodeName : String)
    (environment : Environment WordCountMap) :
    Except ProgramError (IceFlow WordCountMap × List (Call WordCountMap)) := do
  let iceflow ← constructs dagParser nodeName environment
  let upstreamEdgeName := (← optionalValue (← iceflow.getUpstreamEdge 0)).id
  let _saveThreshold ← measurementsSaveThreshold iceflow
  return (iceflow, [.registerConsumerCallback upstreamEdgeName countWordCallback,
    .repartitionConsumer upstreamEdgeName [0]])

theorem constructs_ok {dagParser : DAGParser} {nodeName : String} {environment : Environment μ}
    {n : IceFlow μ} : constructs dagParser nodeName environment = .ok n ↔
      IceFlow.construct dagParser nodeName environment = .ok n := by
  rw [constructs]
  cases IceFlow.construct dagParser nodeName environment <;> simp [Except.mapError]

theorem Text2lines.run_ok {files : String → Option Bytes} {dagParser : DAGParser}
    {nodeName : String} {environment : Environment μ} {n : IceFlow μ} {calls : List (Call μ)}
    (started : run files dagParser nodeName environment = .ok (n, calls)) :
    IceFlow.construct dagParser nodeName environment = .ok n ∧
      ∃ edge fileName, n.downstreamEdges[0]? = some edge ∧
        n.getApplicationParameter Json.getString "sourceTextFileName" = some fileName ∧
        calls = (((files fileName).map LineSplitter.text2lines).getD []).map
          (fun line => .pushData edge.id line) := by
  simp only [run, Results.bind_ok, Results.pure_ok, constructs_ok, IceFlow.getDownstreamEdge,
    IceFlow.edgeAt_zero, optionalValue_ok, Except.ok.injEq] at started
  obtain ⟨_, built, _, rfl, edge, first, _, _, fileName, named, made⟩ := started
  cases made
  exact ⟨built, edge, fileName, first, named, rfl⟩

theorem Lines2words.main_ok {fuel : Nat} {dagParser : DAGParser} {environment : Environment μ}
    {instanceNumber numberOfInstances : Nat} {n : IceFlow μ} {calls : List (Call μ)}
    (started : main fuel dagParser environment instanceNumber numberOfInstances =
      some (.ok (n, calls))) :
    IceFlow.construct dagParser "lines2words" environment = .ok n ∧
      ∃ upstreamEdge downstreamEdge partitions, n.upstreamEdges[0]? = some upstreamEdge ∧
        n.downstreamEdges[0]? = some downstreamEdge ∧
        Repartitions upstreamEdge (WordSplitter.lines2words (μ := μ) downstreamEdge.id)
          instanceNumber numberOfInstances partitions ∧
        calls = [.registerProsumerCallback upstreamEdge.id
            (WordSplitter.lines2words downstreamEdge.id),
          .repartitionConsumer upstreamEdge.id partitions] := by
  unfold main at started
  split at started
  · rename_i consumerIndex numberOfConsumers first second
    simp only [run] at started
    split at started
    · cases started
    · rename_i iceflow upstreamEdge downstreamEdgeName edges
      simp only [Results.bind_ok, Results.pure_ok, constructs_ok, IceFlow.getDownstreamEdge,
        IceFlow.getUpstreamEdge, IceFlow.edgeAt_zero, optionalValue_ok, Except.ok.injEq] at edges
      obtain ⟨_, built, _, rfl, _, up, _, rfl, downstreamEdge, down, made⟩ := edges
      cases made
      obtain ⟨made, ran, finished⟩ := Option.map_eq_some_iff.mp started
      simp only [Results.bind_ok, Results.pure_ok] at finished
      obtain ⟨_, _, same⟩ := finished
      cases same
      have whole := ran
      simp only [WordCount.run, Option.bind_eq_bind, Option.bind_eq_some_iff] at ran
      obtain ⟨partitions, computed, same⟩ := ran
      cases same
      have called : WordCount.main fuel upstreamEdge
          (WordSplitter.lines2words (μ := μ) downstreamEdge.id) instanceNumber numberOfInstances =
            some [.registerProsumerCallback upstreamEdge.id
                (WordSplitter.lines2words downstreamEdge.id),
              .repartitionConsumer upstreamEdge.id partitions] := by
        simp only [WordCount.main, first, second, Option.bind_eq_bind, Option.bind_some]
        exact whole
      exact ⟨built, upstreamEdge, downstreamEdge, partitions, up, down,
        ⟨fuel, _, called, by simp⟩, rfl⟩
  · cases started

theorem Wordcount.run_ok {dagParser : DAGParser} {nodeName : String}
    {environment : Environment WordCountMap} {n : IceFlow WordCountMap}
    {calls : List (Call WordCountMap)}
    (started : run dagParser nodeName environment = .ok (n, calls)) :
    IceFlow.construct dagParser nodeName environment = .ok n ∧
      ∃ edge, n.upstreamEdges[0]? = some edge ∧
        calls = [.registerConsumerCallback edge.id countWordCallback,
          .repartitionConsumer edge.id [0]] := by
  simp only [run, Results.bind_ok, Results.pure_ok, constructs_ok, IceFlow.getUpstreamEdge,
    IceFlow.edgeAt_zero, optionalValue_ok, Except.ok.injEq] at started
  obtain ⟨_, built, _, rfl, edge, first, _, _, made⟩ := started
  cases made
  exact ⟨built, edge, first, rfl⟩

end Iceflow.WordCount
