import Iceflow.Executor.Totals
import Iceflow.NodeInstanceService.Handlers

/-! What a statistics query is answered while other steps interleave with its own. Each
consumer is copied at a moment of its own, so the answer has what each of them had consumed at
some moment of the query, but not at one moment for all. -/
namespace Iceflow
open IceFlow IceflowConsumer IceflowExecutor

section
variable [Platform] {κ μ : Type}

namespace IceFlow

/-- Two states with the same past, the same producers and the same records of consumers. -/
structure SameRecords (n n' : IceFlow μ) : Prop where
  history : n'.history = n.history
  publications : n'.svsPubSub.publications = n.svsPubSub.publications
  producers : n'.iceflowProducers = n.iceflowProducers
  records : ∀ edge, (n'.iceflowConsumers.lookup edge).map records =
    (n.iceflowConsumers.lookup edge).map records

theorem SameRecords.refl (n : IceFlow μ) : SameRecords n n := ⟨rfl, rfl, rfl, fun _ => rfl⟩

theorem Repartitioned.sameRecords {n n' : IceFlow μ} {edge : String}
    {consumer : IceflowConsumer μ} {partitions : List UInt32} {added : List Handle}
    (done : Repartitioned n edge consumer partitions added n')
    (found : n.iceflowConsumers.lookup edge = some consumer) : SameRecords n n' := by
  rw [done.node_eq]
  exact ⟨rfl, rfl, rfl, StringMap.map_lookup_insert IceflowConsumer.records found rfl⟩

theorem Joined.sameRecords {n n' : IceFlow μ} {edge : String} {consumer : IceflowConsumer μ}
    {topic : Name} {partition : UInt32} {handle : Handle}
    (joined : Joined n edge consumer topic partition handle n')
    (found : n.iceflowConsumers.lookup edge = some consumer) : SameRecords n n' := by
  rw [joined.node_eq]
  exact ⟨rfl, rfl, rfl, StringMap.map_lookup_insert IceflowConsumer.records found rfl⟩

theorem Released.sameRecords {n n' : IceFlow μ} {handles : List Handle}
    (released : Released n handles n') : SameRecords n n' := by
  rw [released.node_eq]
  exact ⟨rfl, rfl, rfl, fun _ => rfl⟩

/-- What the statistics are computed from, after steps with these readings of the clock. -/
structure Tallied (n₀ n : IceFlow μ) (readings : String → List Int) : Prop where
  balanced : n.Balanced
  unrecorded : n.Unrecorded
  records : ∀ edge, Records n₀ n edge (n.recordedTimes edge)
  read : ∀ edge, (n.recordedTimes edge).Sublist (readings edge)

theorem Constructed.tallied {n₀ : IceFlow μ} (constructed : n₀.Constructed) :
    Tallied n₀ n₀ (fun _ => []) :=
  ⟨constructed.balanced, constructed.run_unrecorded [],
    fun edge => (constructed.run_records [] edge).1,
    fun edge => (constructed.run_records [] edge).2⟩

theorem Tallied.same {n₀ n n' : IceFlow μ} {readings readings' : String → List Int}
    (tallied : Tallied n₀ n readings) (same : SameRecords n n')
    (more : ∀ edge, (readings edge).Sublist (readings' edge)) : Tallied n₀ n' readings' := by
  have times (edge : String) : n'.recordedTimes edge = n.recordedTimes edge := by
    rw [recordedTimes, same.history, recordedTimes]
  constructor
  · obtain ⟨acknowledged, recorded⟩ := tallied.balanced
    constructor
    · rw [acknowledgedItems, completedItems, same.publications, same.history]
      exact acknowledged
    · rw [recordedEdges, completedItems, same.history]
      exact recorded
  · intro edge producer found
    rw [same.producers] at found
    exact tallied.unrecorded edge producer found
  · intro edge
    have kept := (tallied.records edge).trans (Records.of_same same.history (same.records edge))
    rwa [List.append_nil, ← times] at kept
  · intro edge
    rw [times]
    exact (tallied.read edge).trans (more edge)

theorem Tallied.perform {n₀ n : IceFlow μ} (wf : WellFormed n) {readings : String → List Int}
    (tallied : Tallied n₀ n readings) (op : Op μ) :
    Tallied n₀ (op.perform n) (fun edge => readings edge ++ op.readings edge) := by
  refine ⟨tallied.balanced.perform wf op, tallied.unrecorded.perform wf op, ?_, ?_⟩ <;>
    intro edge <;> obtain ⟨times, records, read⟩ := records_perform wf op edge <;>
    rw [records.recorded]
  · exact (tallied.records edge).trans records
  · exact (tallied.read edge).append read

end IceFlow

namespace NodeInstanceService

theorem Handler.Begins.sameRecords {n : IceFlow μ} {request : RepartitionRequest}
    {next : Handler μ × IceFlow μ} (begins : Begins n request next) : SameRecords n next.2 := by
  cases begins with
  | unknown missing => exact .refl n
  | found consumer n' held emptied => exact emptied.sameRecords held

theorem Handler.Proceeds.sameRecords {n : IceFlow μ} {now : Int} {handler : Handler μ}
    {next : Handler μ × IceFlow μ} (proceeds : Proceeds n now handler next) :
    SameRecords n next.2 := by
  cases proceeds with
  | subscribed request partition rest consumer topic handle n' found joined =>
    exact joined.sameRecords found
  | released edge rest consumerStats consumer n' destroyed => exact destroyed.sameRecords
  | _ => exact .refl n

namespace Handling

/-- Readings of the clock for the consumer of an edge, and at steps of handlers. -/
def Step.readings (edge : String) : Step κ μ → List Int
  | .repartition _ _ | .queryStats _ => []
  | .proceed _ now => [now]
  | .node op => op.readings edge

/-- From the construction on, the clock does not run backwards. -/
def Clocked (n₀ : IceFlow μ) (steps : List (Step κ μ)) : Prop :=
  ∀ edge consumer, n₀.iceflowConsumers.lookup edge = some consumer →
    (consumer.idleSince :: steps.flatMap (Step.readings edge)).Pairwise (· ≤ ·)

variable [DecidableEq κ]

theorem Acts.tallied {n₀ : IceFlow μ} {s s' : Handling κ μ} (wf : WellFormed s.node)
    {readings : String → List Int} (tallied : Tallied n₀ s.node readings) {step : Step κ μ}
    (acts : Acts s step s') :
    Tallied n₀ s'.node (fun edge => readings edge ++ step.readings edge) := by
  have more (edge : String) : (readings edge).Sublist (readings edge ++ step.readings edge) :=
    List.sublist_append_left _ _
  cases acts with
  | busy => exact tallied.same (.refl _) more
  | begins t request next idle begins => exact tallied.same begins.sameRecords more
  | queries t idle => exact tallied.same (.refl _) more
  | proceeds t now next proceeds => exact tallied.same proceeds.sameRecords more
  | operates op => exact tallied.perform wf op

theorem run_tallied {n₀ : IceFlow μ} (constructed : n₀.Constructed) (steps : List (Step κ μ)) :
    Tallied n₀ (run n₀ steps).node (fun edge => steps.flatMap (Step.readings edge)) := by
  induction steps using List.reverseRecOn with
  | nil => exact constructed.tallied
  | append_singleton steps step ih =>
    have sound := run_sound constructed steps
    simp only [run_concat, List.flatMap_append, List.flatMap_singleton]
    exact (sound.acts step).tallied sound.wellFormed ih

/-- The consumer of an edge was copied during a query that began after `begun`, and the copy
was asked later. -/
def Asked (n₀ : IceFlow μ) (begun : List (Step κ μ)) (t : κ) (during : List (Step κ μ))
    (edge : String) (stats : EdgeConsumptionStats) : Prop :=
  ∃ first second now consumer, during = first ++ second ∧ Step.proceed t now ∈ second ∧
    (run n₀ (begun ++ .queryStats t :: first)).node.iceflowConsumers.lookup edge =
      some consumer ∧ (consumer.getConsumptionStats now).1 = stats

/-- A handler has the statistics of all consumers but those of the edges that are left. -/
structure HasConsumers (n₀ : IceFlow μ) (begun : List (Step κ μ)) (t : κ)
    (during : List (Step κ μ)) (edges : List String)
    (consumerStats : StringMap EdgeConsumptionStats) : Prop where
  all : ∀ edge ∈ n₀.iceflowConsumers, edge ∈ edges ∨ edge ∈ consumerStats
  asked : ∀ edge stats, consumerStats.lookup edge = some stats → Asked n₀ begun t during edge stats

structure HasProducers (n₀ : IceFlow μ) (t : κ) (during : List (Step κ μ)) (edges : List String)
    (producerStats : StringMap EdgeProductionStats) : Prop where
  all : ∀ edge ∈ n₀.iceflowProducers, edge ∈ edges ∨ edge ∈ producerStats
  asked : ∀ edge stats, producerStats.lookup edge = some stats → edge ∈ n₀.iceflowProducers ∧
    ∃ now, Step.proceed t now ∈ during ∧ stats = ⟨0, UInt64.ofInt (now.tdiv 1000000)⟩

inductive Gathered (n₀ : IceFlow μ) (begun : List (Step κ μ)) (t : κ)
    (during : List (Step κ μ)) : Handler μ → Prop where
  | consumers (edges : List String) (consumerStats : StringMap EdgeConsumptionStats)
      (has : HasConsumers n₀ begun t during edges consumerStats) :
      Gathered n₀ begun t during (.consumers edges consumerStats)
  | asking (edge : String) (edges : List String)
      (consumerStats : StringMap EdgeConsumptionStats) (consumer : IceflowConsumer μ)
      (has : HasConsumers n₀ begun t during (edge :: edges) consumerStats)
      (copied : ∃ first second, during = first ++ second ∧
        (run n₀ (begun ++ .queryStats t :: first)).node.iceflowConsumers.lookup edge =
          some consumer) :
      Gathered n₀ begun t during (.asking edge edges consumerStats consumer)
  | producers (edges : List String) (consumerStats : StringMap EdgeConsumptionStats)
      (producerStats : StringMap EdgeProductionStats)
      (consumers : HasConsumers n₀ begun t during [] consumerStats)
      (producers : HasProducers n₀ t during edges producerStats) :
      Gathered n₀ begun t during (.producers edges consumerStats producerStats)
  | answered (consumerStats : StringMap EdgeConsumptionStats)
      (producerStats : StringMap EdgeProductionStats)
      (consumers : HasConsumers n₀ begun t during [] consumerStats)
      (producers : HasProducers n₀ t during [] producerStats) :
      Gathered n₀ begun t during
        (.answered (.queryStats .ok (encodeStats consumerStats producerStats)))

variable {n₀ : IceFlow μ} {begun during : List (Step κ μ)} {t : κ} {edges : List String}
  {consumerStats : StringMap EdgeConsumptionStats}
  {producerStats : StringMap EdgeProductionStats}

omit [Platform] [DecidableEq κ] in
theorem covered_emplace {V : Type} {values : StringMap V} {edge e : String}
    (covered : e ∈ edge :: edges ∨ e ∈ values) (value : V) :
    e ∈ edges ∨ e ∈ values.emplace edge value := by
  rw [StringMap.mem_emplace]
  rcases covered with left | present
  · rcases List.mem_cons.mp left with here | rest
    · exact Or.inr (Or.inl here)
    · exact Or.inl rest
  · exact Or.inr (Or.inr present)

theorem HasConsumers.mono (has : HasConsumers n₀ begun t during edges consumerStats)
    (step : Step κ μ) : HasConsumers n₀ begun t (during ++ [step]) edges consumerStats := by
  refine ⟨has.all, fun edge stats found => ?_⟩
  obtain ⟨first, second, now, consumer, rfl, asked, held, same⟩ := has.asked edge stats found
  exact ⟨first, second ++ [step], now, consumer, List.append_assoc _ _ _,
    List.mem_append_left _ asked, held, same⟩

theorem HasConsumers.emplace {edge : String}
    (has : HasConsumers n₀ begun t during (edge :: edges) consumerStats)
    {stats : EdgeConsumptionStats} (asked : Asked n₀ begun t during edge stats) :
    HasConsumers n₀ begun t during edges (consumerStats.emplace edge stats) := by
  constructor
  · exact fun e known => covered_emplace (has.all e known) _
  · intro e found listed
    rcases StringMap.lookup_emplace listed with old | ⟨rfl, rfl⟩
    · exact has.asked e found old
    · exact asked

omit [DecidableEq κ] in
theorem HasProducers.mono (has : HasProducers n₀ t during edges producerStats)
    (step : Step κ μ) : HasProducers n₀ t (during ++ [step]) edges producerStats := by
  refine ⟨has.all, fun edge stats found => ?_⟩
  obtain ⟨known, now, asked, same⟩ := has.asked edge stats found
  exact ⟨known, now, List.mem_append_left _ asked, same⟩

omit [DecidableEq κ] in
theorem HasProducers.emplace {edge : String} (known : edge ∈ n₀.iceflowProducers)
    (has : HasProducers n₀ t during (edge :: edges) producerStats) {now : Int}
    (asked : Step.proceed t now ∈ during) : HasProducers n₀ t during edges
      (producerStats.emplace edge ⟨0, UInt64.ofInt (now.tdiv 1000000)⟩) := by
  constructor
  · exact fun e known => covered_emplace (has.all e known) _
  · intro e found listed
    rcases StringMap.lookup_emplace listed with old | ⟨rfl, rfl⟩
    · exact has.asked e found old
    · exact ⟨known, now, asked, rfl⟩

theorem Gathered.mono {handler : Handler μ} (gathered : Gathered n₀ begun t during handler)
    (step : Step κ μ) : Gathered n₀ begun t (during ++ [step]) handler := by
  cases gathered with
  | consumers edges consumerStats has => exact .consumers _ _ (has.mono step)
  | asking edge edges consumerStats consumer has copied =>
    obtain ⟨first, second, rfl, held⟩ := copied
    exact .asking _ _ _ _ (has.mono step) ⟨first, second ++ [step], List.append_assoc _ _ _, held⟩
  | producers edges consumerStats producerStats consumers producers =>
    exact .producers _ _ _ (consumers.mono step) (producers.mono step)
  | answered consumerStats producerStats consumers producers =>
    exact .answered _ _ (consumers.mono step) (producers.mono step)

theorem Gathered.proceed (constructed : n₀.Constructed) {handler : Handler μ}
    (gathered : Gathered n₀ begun t during handler) {now : Int} {next : Handler μ × IceFlow μ}
    (proceeds : Handler.Proceeds (run n₀ (begun ++ .queryStats t :: during)).node now handler
      next) : Gathered n₀ begun t (during ++ [.proceed t now]) next.1 := by
  have later := run_later constructed (begun ++ .queryStats t :: during)
  have last : Step.proceed t now ∈ during ++ [.proceed t now] :=
    List.mem_append_right _ List.mem_cons_self
  cases gathered with
  | consumers edges consumerStats has =>
    cases proceeds with
    | resting handler ended => simp at ended
    | consumersDone consumerStats =>
      refine .producers _ _ _ (has.mono _) ⟨fun edge known => Or.inl ?_, by simp⟩
      exact AList.mem_keys.mp ((later.producers edge).mpr known)
    | copied edge rest consumerStats consumer found =>
      exact .asking _ _ _ _ (has.mono _) ⟨during, [.proceed t now], rfl, found⟩
  | asking edge edges consumerStats consumer has copied =>
    cases proceeds with
    | resting handler ended => simp at ended
    | released edge rest consumerStats consumer n' destroyed =>
      obtain ⟨first, second, rfl, held⟩ := copied
      refine .consumers _ _ ((has.mono _).emplace ?_)
      exact ⟨first, second ++ [.proceed t now], now, consumer, List.append_assoc _ _ _,
        List.mem_append_right _ List.mem_cons_self, held, rfl⟩
  | producers edges consumerStats producerStats consumers producers =>
    cases proceeds with
    | resting handler ended => simp at ended
    | producersDone consumerStats producerStats =>
      exact .answered _ _ (consumers.mono _) (producers.mono _)
    | asked edge rest consumerStats producerStats producer found =>
      have known := (later.producers edge).mp (StringMap.mem_of_lookup found)
      have unrecorded := (run_tallied constructed (begun ++ .queryStats t :: during)).unrecorded
      rw [unrecorded.reported found now]
      exact .producers _ _ _ (consumers.mono _) ((producers.mono _).emplace known last)
  | answered consumerStats producerStats consumers producers =>
    cases proceeds with
    | resting handler ended => exact .answered _ _ (consumers.mono _) (producers.mono _)

theorem run_gathered (constructed : n₀.Constructed) (idle : (run n₀ begun).handler t = .idle)
    (during : List (Step κ μ)) :
    Gathered n₀ begun t during ((run n₀ (begun ++ .queryStats t :: during)).handler t) := by
  induction during using List.reverseRecOn with
  | nil =>
    have later := run_later constructed begun
    rw [run_concat]
    simp only [perform, idle, move, Function.update_self]
    refine .consumers _ _ ⟨fun edge known => Or.inl ?_, by simp⟩
    exact AList.mem_keys.mp ((later.consumers edge).mpr known)
  | append_singleton during step ih =>
    have sound := run_sound constructed (begun ++ .queryStats t :: during)
    rw [← List.cons_append, ← List.append_assoc, run_concat]
    by_cases own : ∃ now, step = .proceed t now
    · obtain ⟨now, rfl⟩ := own
      have next := ih.proceed constructed (Handler.proceeds sound.wellFormed now (sound.known t))
      simpa only [perform, move, Function.update_self] using next
    · have busy : (run n₀ (begun ++ .queryStats t :: during)).handler t ≠ .idle := by
        intro idle
        rw [idle] at ih
        cases ih
      rw [handler_perform busy (fun now same => own ⟨now, same⟩)]
      exact ih.mono step

theorem HasConsumers.totals (constructed : n₀.Constructed)
    (clocked : Clocked n₀ (begun ++ .queryStats t :: during))
    (has : HasConsumers n₀ begun t during [] consumerStats) {edge : String}
    (known : edge ∈ n₀.iceflowConsumers) :
    ∃ first second now, during = first ++ second ∧ Step.proceed t now ∈ second ∧
      (consumerStats.lookup edge).map sentConsumption =
        (n₀.iceflowConsumers.lookup edge).map (fun consumer =>
          ⟨UInt64.ofNat ((run n₀ (begun ++ .queryStats t :: first)).node.consumed edge % 2 ^ 32),
            wholeMilliseconds (((run n₀ (begun ++ .queryStats t :: first)).node.recordedTimes
              edge).getLast?.getD consumer.idleSince) now⟩) := by
  have present := (has.all edge known).resolve_left List.not_mem_nil
  obtain ⟨stats, found⟩ := StringMap.mem_iff_lookup.mp present
  obtain ⟨first, second, now, consumer, rfl, asked, held, rfl⟩ := has.asked edge stats found
  have tallied := run_tallied constructed (begun ++ .queryStats t :: first)
  -- The copy is asked after all that was recorded before it was made.
  have ordered (initial : IceflowConsumer μ)
      (found : n₀.iceflowConsumers.lookup edge = some initial) :
      (initial.idleSince :: ((run n₀ (begun ++ .queryStats t :: first)).node.recordedTimes edge ++
        [now])).Pairwise (· ≤ ·) := by
    have readings := clocked edge initial found
    rw [← List.cons_append, ← List.append_assoc, List.flatMap_append] at readings
    refine readings.sublist (.cons_cons _ ((tallied.read edge).append ?_))
    exact List.singleton_sublist.mpr (List.mem_flatMap.mpr ⟨_, asked, List.mem_singleton_self _⟩)
  have reported := constructed.reported (tallied.records edge) ordered
  refine ⟨first, second, now, rfl, asked, ?_⟩
  rw [held, Option.map_some] at reported
  rw [found, reported, Option.map_map, tallied.balanced.consumed_eq]
  simp only [Function.comp_def, sentConsumption, ofNat_toUInt32]

theorem HasConsumers.mem_iff (constructed : n₀.Constructed)
    (has : HasConsumers n₀ begun t during [] consumerStats) (edge : String) :
    edge ∈ consumerStats ↔ edge ∈ n₀.iceflowConsumers := by
  constructor
  · intro present
    obtain ⟨stats, found⟩ := StringMap.mem_iff_lookup.mp present
    obtain ⟨first, _, _, consumer, _, _, held, _⟩ := has.asked edge stats found
    exact ((run_later constructed _).consumers edge).mp (StringMap.mem_of_lookup held)
  · exact fun known => (has.all edge known).resolve_left List.not_mem_nil

omit [DecidableEq κ] in
theorem HasProducers.totals (has : HasProducers n₀ t during [] producerStats) (edge : String) :
    ∃ now, (edge ∈ n₀.iceflowProducers → Step.proceed t now ∈ during) ∧
      (producerStats.lookup edge).map sentProduction =
        (n₀.iceflowProducers.lookup edge).map
          (fun _ => ⟨0, UInt64.ofInt (now.tdiv 1000000)⟩) := by
  cases found : n₀.iceflowProducers.lookup edge with
  | none =>
    refine ⟨0, fun known => absurd known (AList.lookup_eq_none.mp found), ?_⟩
    cases listed : producerStats.lookup edge with
    | none => rfl
    | some stats =>
      exact absurd (has.asked edge stats listed).1 (AList.lookup_eq_none.mp found)
  | some producer =>
    have present := (has.all edge (StringMap.mem_of_lookup found)).resolve_left List.not_mem_nil
    obtain ⟨stats, listed⟩ := StringMap.mem_iff_lookup.mp present
    obtain ⟨_, now, asked, rfl⟩ := has.asked edge stats listed
    refine ⟨now, fun _ => asked, ?_⟩
    rw [listed]
    rfl

/-- A query whose handler takes its steps is answered, and returns for each edge the statistics
of the node at a moment of the query, whatever steps the node and other handlers take. -/
theorem run_answered (constructed : n₀.Constructed) (idle : (run n₀ begun).handler t = .idle)
    (clocked : Clocked n₀ (begun ++ .queryStats t :: during))
    (enough : 2 * n₀.iceflowConsumers.keys.length + n₀.iceflowProducers.keys.length + 2 ≤
      during.countP (Step.continues t)) :
    ∃ response result,
      (run n₀ (begun ++ .queryStats t :: during)).handler t = .answered response ∧
      Control.queryResult (some response) = .ok result ∧
      ∀ edge, ∃ first second clocks, during = first ++ second ∧
        (edge ∈ n₀.iceflowConsumers → Step.proceed t (clocks.consumers edge) ∈ second) ∧
        (edge ∈ n₀.iceflowProducers → Step.proceed t (clocks.producers edge) ∈ during) ∧
        result.lookup edge =
          n₀.totals (run n₀ (begun ++ .queryStats t :: first)).node clocks edge := by
  have asked : (run n₀ (begun ++ [.queryStats t])).handler t =
      .consumers (run n₀ begun).node.iceflowConsumers.keys ∅ := by
    rw [run_concat]
    simp only [perform, idle, move, Function.update_self, Handler.queryStats]
  have length := StringMap.length_keys (run_later constructed begun).consumers
  obtain ⟨response, answered⟩ : ∃ response,
      (run n₀ (begun ++ .queryStats t :: during)).handler t = .answered response := by
    rw [List.append_cons]
    apply run_answers constructed <;> rw [asked]
    · simp
    · simpa only [Handler.remaining, length] using enough
  have gathered := run_gathered constructed idle during
  rw [answered] at gathered
  cases gathered with
  | answered consumerStats producerStats consumers producers =>
    refine ⟨_, _, answered, rfl, fun edge => ?_⟩
    obtain ⟨asked, read, production⟩ := producers.totals edge
    have known := consumers.mem_iff constructed edge
    have present : edge ∈ producerStats ↔ edge ∈ n₀.iceflowProducers := by
      have same := congrArg Option.isSome production
      rw [Option.isSome_map, Option.isSome_map] at same
      rw [← AList.lookup_isSome, ← AList.lookup_isSome, same]
    have received := (lookup_received consumerStats producerStats edge).trans
      (if_congr (or_congr known present) rfl rfl)
    rw [received, production]
    by_cases consumed : edge ∈ n₀.iceflowConsumers
    · obtain ⟨first, second, now, split, copied, consumption⟩ :=
        consumers.totals constructed clocked consumed
      rw [consumption]
      exact ⟨first, second, ⟨fun _ => now, fun _ => asked⟩, split, fun _ => copied, read, rfl⟩
    · have absent : consumerStats.lookup edge = none :=
        AList.lookup_eq_none.mpr (known.not.mpr consumed)
      have unknown : n₀.iceflowConsumers.lookup edge = none := AList.lookup_eq_none.mpr consumed
      refine ⟨[], during, ⟨fun _ => 0, fun _ => asked⟩, rfl, fun here => absurd here consumed, read,
        ?_⟩
      rw [totals, absent, unknown]
      rfl

end Handling
end NodeInstanceService
end

section
open scoped Iceflow.Reference
open WordCount
namespace NodeInstanceService.Handling

def ready : List (Step Unit Unit) :=
  [.node (.call (.registerProsumerCallback "t2l" (splitLine "l2w"))),
    .node (.call (.repartitionConsumer "t2l" [0]))]

/-- A line is split before the consumer is copied, and one after it. -/
def copying : List (Step Unit Unit) :=
  [.node (.deliver (Reference.handle 2) line 3000000), .proceed () 4000000,
    .node (.deliver (Reference.handle 2) line 5000000), .proceed () 6000000,
    .proceed () 7000000, .proceed () 8000000, .proceed () 9000000]

theorem clocked_copying : Clocked firstSplitter (ready ++ .queryStats () :: copying) := by
  intro edge consumer found
  have known : edge ∈ firstSplitter.iceflowConsumers := StringMap.mem_of_lookup found
  have only : edge = "t2l" := by simpa using show edge ∈ ["t2l"] from known
  subst only
  cases found
  decide

theorem run_answered_copying :
    ∃ response result,
      (run firstSplitter (ready ++ .queryStats () :: copying)).handler () =
        .answered response ∧
      Control.queryResult (some response) = .ok result ∧
      ∀ edge, ∃ first second clocks, copying = first ++ second ∧
        (edge ∈ firstSplitter.iceflowConsumers →
          Step.proceed () (clocks.consumers edge) ∈ second) ∧
        (edge ∈ firstSplitter.iceflowProducers →
          Step.proceed () (clocks.producers edge) ∈ copying) ∧
        result.lookup edge = firstSplitter.totals
          (run firstSplitter (ready ++ .queryStats () :: first)).node clocks edge :=
  run_answered constructed_firstSplitter rfl clocked_copying (by decide)

/-- The first line is counted, and three milliseconds have passed since. -/
example : (run firstSplitter (ready ++ .queryStats () :: copying)).handler () =
    .answered (.queryStats .ok ⟨[⟨"l2w", 0, 8⟩], [⟨"t2l", 1, 3⟩]⟩) := rfl

end NodeInstanceService.Handling
end
end Iceflow
