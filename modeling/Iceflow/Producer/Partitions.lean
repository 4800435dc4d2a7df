import Iceflow.Node.Construction
import Iceflow.WordCount

/-! The partitions a producer publishes to. Repartitioning assigns the set of
topic partitions, while publishing draws below the number of partitions that the
producer was constructed with, so the two agree on growing sets only. -/
namespace Iceflow

theorem mem_partitionsBelow {q : UInt32} {n : UInt64} :
    q ∈ partitionsBelow n ↔ q.toNat < n.toNat := by
  have loop (k : Nat) : q ∈ (List.range k).foldl (fun s i => insert (UInt32.ofNat i) s)
      (∅ : Finset UInt32) ↔
      ∃ i < k, UInt32.ofNat i = q := by
    induction k with
    | zero => simp
    | succ k ih =>
      rw [List.range_succ, List.foldl_append, List.foldl_cons, List.foldl_nil, Finset.mem_insert,
        ih]
      constructor
      · rintro (rfl | ⟨i, below, rfl⟩)
        · exact ⟨k, Nat.lt_succ_self k, rfl⟩
        · exact ⟨i, Nat.lt_succ_of_lt below, rfl⟩
      · rintro ⟨i, below, rfl⟩
        rcases Nat.lt_succ_iff_lt_or_eq.mp below with earlier | rfl
        · exact Or.inr ⟨i, earlier, rfl⟩
        · exact Or.inl rfl
  rw [partitionsBelow, loop]
  constructor
  · rintro ⟨i, below, rfl⟩
    exact lt_of_le_of_lt (by rw [UInt32.toNat_ofNat']; exact Nat.mod_le _ _) below
  · intro below
    exact ⟨q.toNat, below, UInt32.ofNat_toNat⟩

theorem newTopicPartitions_of_ne_zero {n : UInt64} (positive : n ≠ 0) :
    newTopicPartitions n = .ok (partitionsBelow n) := by
  simp [newTopicPartitions, positive]

section
variable [Platform] {μ : Type}

namespace IceflowProducer

/-- The generator decides nothing about the construction. -/
theorem construct_generator {svs svs' : SVSPubSub} {nodePrefix syncPrefix edge : String}
    {k : UInt32} {generator : Stream' UInt32} {producer : IceflowProducer}
    (constructed : construct svs nodePrefix syncPrefix edge k generator = .ok (producer, svs'))
    (other : Stream' UInt32) :
    construct svs nodePrefix syncPrefix edge k other =
      .ok ({ producer with randomNumberGenerator := other }, svs') := by
  unfold construct at constructed ⊢
  split at constructed
  · contradiction
  · rename_i topicPartitions positive
    dsimp only at constructed ⊢
    split at constructed
    · contradiction
    · rename_i after parsed
      cases constructed
      rfl

theorem generator_of_construct {svs svs' : SVSPubSub} {nodePrefix syncPrefix edge : String}
    {k : UInt32} {generator : Stream' UInt32} {producer : IceflowProducer}
    (constructed : construct svs nodePrefix syncPrefix edge k generator = .ok (producer, svs')) :
    producer.randomNumberGenerator = generator := by
  unfold construct at constructed
  split at constructed
  · contradiction
  · dsimp only at constructed
    split at constructed
    · contradiction
    · cases constructed
      rfl

end IceflowProducer

/-- What happens to a producer: its two public calls that change something. -/
inductive ProducerOp where
  | setTopicPartitions (numberOfPartitions : UInt64)
  | pushData (payload : Bytes)

/-- The number of the last call of `setTopicPartitions` that did not throw. -/
def lastNumberOfPartitions (initial : UInt64) (ops : List ProducerOp) : UInt64 :=
  ops.foldl (fun last op =>
    match op with
    | .setTopicPartitions n => if n = 0 then last else n
    | .pushData _ => last) initial

namespace ProducerOp

def perform (state : IceflowProducer × SVSPubSub) : ProducerOp → IceflowProducer × SVSPubSub
  | .setTopicPartitions n =>
    match state.1.setTopicPartitions n with
    | .error _ => state
    | .ok producer => (producer, state.2)
  | .pushData payload =>
    let (_, producer, svs) := state.1.pushData state.2 payload
    (producer, svs)

def call (edge : String) : ProducerOp → Call μ
  | .setTopicPartitions n => .repartitionProducer edge n
  | .pushData payload => .pushData edge payload

/-- The calls of a node act on the producer of their edge as the producer's own. -/
theorem perform_call {n : IceFlow μ} {edge : String} {producer : IceflowProducer}
    (found : n.iceflowProducers.lookup edge = some producer) (op : ProducerOp) :
    ((op.call edge).perform n).iceflowProducers.lookup edge =
        some (op.perform (producer, n.svsPubSub)).1 ∧
      ((op.call edge).perform n).svsPubSub = (op.perform (producer, n.svsPubSub)).2 := by
  cases op with
  | pushData payload =>
    simp [call, Call.perform, IceFlow.pushData, perform, found, AList.lookup_insert]
  | setTopicPartitions k =>
    simp only [call, Call.perform, IceFlow.repartitionProducer, perform, found]
    cases producer.setTopicPartitions k with
    | error e => exact ⟨found, rfl⟩
    | ok changed => exact ⟨AList.lookup_insert _, rfl⟩

theorem run_calls {n : IceFlow μ} {edge : String} {producer : IceflowProducer}
    (found : n.iceflowProducers.lookup edge = some producer) (ops : List ProducerOp) :
    (n.run (ops.map (fun op => .call (op.call edge)))).iceflowProducers.lookup edge =
        some (Transition.run perform (producer, n.svsPubSub) ops).1 ∧
      (n.run (ops.map (fun op => .call (op.call edge)))).svsPubSub =
        (Transition.run perform (producer, n.svsPubSub) ops).2 := by
  induction ops generalizing n producer with
  | nil => exact ⟨found, rfl⟩
  | cons op rest ih =>
    obtain ⟨found', svs⟩ := perform_call found op
    have later := ih found'
    rw [svs] at later
    exact later

end ProducerOp

/-- The configuration of a producer that was constructed with `k` partitions and
`generator`, and last set to `last` partitions. -/
structure IceflowProducer.Configured (k : UInt32) (generator : Stream' UInt32) (last : UInt64)
    (state : IceflowProducer × SVSPubSub) : Prop where
  live : state.2.expired = false
  nodePrefix_parses : ∃ nodeName, Platform.nameOfUri state.1.nodePrefix = some nodeName
  numberOfPartitions : state.1.numberOfPartitions = k
  topicPartitions : state.1.topicPartitions = partitionsBelow last
  generator : ∃ i, state.1.randomNumberGenerator = generator.drop i

namespace IceflowProducer.Configured

variable {k : UInt32} {generator : Stream' UInt32} {last : UInt64}
  {state : IceflowProducer × SVSPubSub}

theorem of_construct {svs svs' : SVSPubSub} {nodePrefix syncPrefix edge : String}
    {producer : IceflowProducer} (live : svs.expired = false) {nodeName : Name}
    (nodeParsed : Platform.nameOfUri nodePrefix = some nodeName)
    (constructed : construct svs nodePrefix syncPrefix edge k generator = .ok (producer, svs')) :
    Configured k generator k.toUInt64 (producer, svs') := by
  have built := construct_built live constructed
  have same := built.identity
  simp only [identity, Prod.mk.injEq] at same
  obtain ⟨-, nodePrefix_eq, -, number, -⟩ := same
  obtain ⟨topic, -, subscribed⟩ := built.subscribed
  have partitions := built.topicPartitions
  have positive : k.toUInt64 ≠ 0 := by
    intro zero
    simp [newTopicPartitions, zero] at partitions
  rw [newTopicPartitions_of_ne_zero positive, Except.ok.injEq] at partitions
  exact ⟨by rw [subscribed]; exact live, ⟨nodeName, by rw [nodePrefix_eq, nodeParsed]⟩, number,
    partitions.symm, 0, generator_of_construct constructed⟩

theorem perform (configured : Configured k generator last state) (op : ProducerOp) :
    Configured k generator (lastNumberOfPartitions last [op]) (op.perform state) := by
  obtain ⟨live, ⟨nodeName, nodeParsed⟩, number, partitions, i, drawn⟩ := configured
  cases op with
  | setTopicPartitions n =>
    by_cases zero : n = 0
    · subst zero
      exact ⟨live, ⟨nodeName, nodeParsed⟩, number, partitions, i, drawn⟩
    · have changed : state.1.setTopicPartitions n =
          .ok { state.1 with topicPartitions := partitionsBelow n } :=
        setTopicPartitions_ok.mpr ⟨_, newTopicPartitions_of_ne_zero zero, rfl⟩
      simp only [ProducerOp.perform, changed, lastNumberOfPartitions, List.foldl_cons,
        List.foldl_nil, if_neg zero]
      exact ⟨live, ⟨nodeName, nodeParsed⟩, number, rfl, i, drawn⟩
  | pushData payload =>
    obtain ⟨topic, parsed⟩ := state.1.pubTopic_parses
    simp only [ProducerOp.perform,
      state.1.pushData_publishes state.2 live parsed nodeParsed payload]
    refine ⟨live, ⟨nodeName, nodeParsed⟩, number, partitions, i + 1, ?_⟩
    rw [getNextPartitionNumber, drawn, Stream'.tail_drop']

/-- The next partition is some output of the generator modulo `k`. -/
theorem draws (configured : Configured k generator last state) :
    ∃ i, state.1.getNextPartitionNumber.1 = generator.get i % k := by
  obtain ⟨i, drawn⟩ := configured.generator
  refine ⟨i, ?_⟩
  change state.1.randomNumberGenerator.head % state.1.numberOfPartitions = _
  rw [drawn, configured.numberOfPartitions, Stream'.head_drop]

theorem run (configured : Configured k generator last state) (ops : List ProducerOp) :
    Configured k generator (lastNumberOfPartitions last ops)
      (Transition.run ProducerOp.perform state ops) := by
  induction ops generalizing state last with
  | nil => exact configured
  | cons op rest ih => exact ih (configured.perform op)

end IceflowProducer.Configured

/-- A step publishes to a partition of the current set, which is one below the
number set last; a call that throws changes nothing; the modulus is not zero. -/
def ProducerOp.Current (last : UInt64) (state : IceflowProducer × SVSPubSub) :
    ProducerOp → Prop
  | .setTopicPartitions n => n = 0 →
    (∃ e, state.1.setTopicPartitions n = .error e) ∧
      (ProducerOp.setTopicPartitions n).perform state = state
  | .pushData payload => state.1.numberOfPartitions ≠ 0 ∧
    ∃ q ∈ state.1.topicPartitions, q.toNat < last.toNat ∧
      ∃ dataID, state.1.prepareDataName q = .ok dataID ∧
        ((ProducerOp.pushData payload).perform state).2.publications =
          state.2.publications ++ [⟨dataID, payload, .pushed state.1.downstreamEdgeName⟩]

theorem IceflowProducer.Configured.push_current_iff {k : UInt32} {generator : Stream' UInt32}
    {last : UInt64} {state : IceflowProducer × SVSPubSub}
    (configured : Configured k generator last state) (payload : Bytes) :
    (ProducerOp.pushData payload).Current last state ↔
      state.1.getNextPartitionNumber.1.toNat < last.toNat := by
  obtain ⟨live, ⟨nodeName, nodeParsed⟩, number, partitions, -⟩ := configured
  obtain ⟨topic, parsed⟩ := state.1.pubTopic_parses
  have pushed := state.1.pushData_publishes state.2 live parsed nodeParsed payload
  have named (q : UInt32) : state.1.prepareDataName q =
      .ok (topic ++ [Platform.fromNumber q.toUInt64]) := partitionName_parsed parsed q
  constructor
  · rintro ⟨-, q, -, below, dataID, prepared, published⟩
    rw [named, Except.ok.injEq] at prepared
    subst prepared
    simp only [ProducerOp.perform, pushed, SVSPubSub.publications_publish,
      List.append_cancel_left_eq, List.cons.injEq, Publication.mk.injEq, and_true,
      Platform.fromNumber_injective.eq_iff, UInt32.toUInt64_inj] at published
    rwa [published]
  · intro below
    refine ⟨state.1.numberOfPartitions_ne_zero, state.1.getNextPartitionNumber.1, ?_, below,
      _, named _, ?_⟩
    · rw [partitions]
      exact mem_partitionsBelow.mpr below
    · simp only [ProducerOp.perform, pushed, SVSPubSub.publications_publish]

/-- For every sequence of calls and all outputs of the generator, every call
respects the current partitions exactly if no push happens while fewer partitions
are set than the producer was constructed with. -/
theorem current_iff {svs : SVSPubSub} (live : svs.expired = false)
    {nodePrefix syncPrefix edge : String} {nodeName : Name}
    (nodeParsed : Platform.nameOfUri nodePrefix = some nodeName) {k : UInt32}
    {generator₀ : Stream' UInt32} {built : IceflowProducer × SVSPubSub}
    (constructed :
      IceflowProducer.construct svs nodePrefix syncPrefix edge k generator₀ = .ok built)
    (ops : List ProducerOp) :
    (∀ generator start,
      IceflowProducer.construct svs nodePrefix syncPrefix edge k generator = .ok start →
      ∀ first op rest, ops = first ++ op :: rest →
        op.Current (lastNumberOfPartitions k.toUInt64 first)
          (Transition.run ProducerOp.perform start first)) ↔
      ∀ first payload rest, ops = first ++ .pushData payload :: rest →
        k.toUInt64 ≤ lastNumberOfPartitions k.toUInt64 first := by
  have positive : 0 < k.toNat := by
    have nonzero := built.1.numberOfPartitions_ne_zero
    rw [(IceflowProducer.Configured.of_construct live nodeParsed constructed).numberOfPartitions]
      at nonzero
    exact Nat.pos_of_ne_zero (fun zero => nonzero (UInt32.toNat_inj.mp zero))
  have configured {generator : Stream' UInt32} {start : IceflowProducer × SVSPubSub}
      (succeeds : IceflowProducer.construct svs nodePrefix syncPrefix edge k generator = .ok start)
      (first : List ProducerOp) :=
    (IceflowProducer.Configured.of_construct live nodeParsed succeeds).run first
  constructor
  · intro all first payload rest split
    -- A generator that draws the last of the `k` partitions every time.
    have succeeds := IceflowProducer.construct_generator constructed (Stream'.const (k - 1))
    have state := configured succeeds first
    obtain ⟨i, drawn⟩ := state.draws
    have pushed := (state.push_current_iff payload).mp
      (all _ _ succeeds first (.pushData payload) rest split)
    have last : (k - 1).toNat = k.toNat - 1 :=
      UInt32.toNat_sub_of_le _ _ (UInt32.le_iff_toNat_le.mpr positive)
    rw [drawn, Stream'.get_const, UInt32.toNat_mod, last, Nat.mod_eq_of_lt (by omega)] at pushed
    rw [UInt64.le_iff_toNat_le, UInt32.toNat_toUInt64]
    omega
  · intro enough generator start succeeds first op rest split
    have state := configured succeeds first
    cases op with
    | setTopicPartitions n =>
      rintro rfl
      exact ⟨⟨_, rfl⟩, rfl⟩
    | pushData payload =>
      obtain ⟨i, drawn⟩ := state.draws
      rw [state.push_current_iff, drawn, UInt32.toNat_mod]
      have bound := enough first payload rest split
      rw [UInt64.le_iff_toNat_le, UInt32.toNat_toUInt64] at bound
      exact lt_of_lt_of_le (Nat.mod_lt _ positive) bound

end

section
open scoped Iceflow.Reference

/-- The instance of a node of the word count application. -/
def wordCountSvs : SVSPubSub :=
  .construct (Reference.components ["WordCount"]) (Reference.components ["node-WordCount", "1"])

theorem wordCountSvs_nodePrefix :
    Platform.nameOfUri "/node-WordCount/1" = some wordCountSvs.nodePrefix := by decide

theorem construct_wordCount (generator : Stream' UInt32) :
    ∃ start, IceflowProducer.construct wordCountSvs "/node-WordCount/1" "WordCount" "t2l" 3
      generator = .ok start := ⟨_, rfl⟩

def growing : List ProducerOp := [.setTopicPartitions 4, .pushData []]

theorem current_iff_growing :
    (∀ generator start,
      IceflowProducer.construct wordCountSvs "/node-WordCount/1" "WordCount" "t2l" 3 generator =
        .ok start →
      ∀ first op rest, growing = first ++ op :: rest →
        op.Current (lastNumberOfPartitions (3 : UInt32).toUInt64 first)
          (Transition.run ProducerOp.perform start first)) ↔
      ∀ first payload rest, growing = first ++ .pushData payload :: rest →
        (3 : UInt32).toUInt64 ≤ lastNumberOfPartitions (3 : UInt32).toUInt64 first := by
  obtain ⟨built, constructed⟩ := construct_wordCount (Stream'.const 0)
  exact current_iff rfl wordCountSvs_nodePrefix constructed growing

/-- A generator that returns 2 makes a producer of three partitions publish to
partition 2 after it was set to one partition. -/
theorem push_after_shrinking :
    ∃ start, IceflowProducer.construct wordCountSvs "/node-WordCount/1" "WordCount" "t2l" 3
        (Stream'.const 2) = .ok start ∧
      ¬ (ProducerOp.pushData []).Current (lastNumberOfPartitions 3 [.setTopicPartitions 1])
        (Transition.run ProducerOp.perform start [.setTopicPartitions 1]) := by
  obtain ⟨start, constructed⟩ := construct_wordCount (Stream'.const 2)
  refine ⟨start, constructed, ?_⟩
  have configured := (IceflowProducer.Configured.of_construct rfl wordCountSvs_nodePrefix
    constructed).run [.setTopicPartitions 1]
  obtain ⟨i, drawn⟩ := configured.draws
  have current := configured.push_current_iff []
  rw [drawn, Stream'.get_const] at current
  exact fun pushed => absurd (current.mp pushed) (by decide)

end
end Iceflow
