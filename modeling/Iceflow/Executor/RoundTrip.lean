import Iceflow.Executor.Merging

/-! Statistics over the wire. The schema gives unit counts 32 bits and idle times
64, so a pair of maps comes back unchanged exactly if all counts fit. -/
namespace Iceflow

theorem toUInt64_toUInt32_eq_iff {n : UInt64} :
    n.toUInt32.toUInt64 = n ↔ n.toNat < 2 ^ 32 := by
  rw [← UInt64.toNat_inj, UInt32.toNat_toUInt64, UInt64.toNat_toUInt32]
  omega

namespace IceflowExecutor
open NodeInstanceService

/-- What is left of an entry after 32 bits of its unit count were sent. -/
def sentProduction (stats : EdgeProductionStats) : EdgeProductionStats :=
  ⟨stats.unitsProduced.toUInt32.toUInt64, stats.idleTime⟩

def sentConsumption (stats : EdgeConsumptionStats) : EdgeConsumptionStats :=
  ⟨stats.unitsConsumed.toUInt32.toUInt64, stats.idleTime⟩

theorem lastNamed_encoded {V A : Type} (m : StringMap V) (edgeName : A → String)
    (encode : String → V → A) (named : ∀ key value, edgeName (encode key value) = key)
    (edge : String) :
    lastNamed edgeName (m.entries.map (fun entry => encode entry.1 entry.2)) edge =
      (m.lookup edge).map (encode edge) := by
  obtain ⟨entries, distinct⟩ := m
  rw [lastNamed, List.filter_map, AList.lookup]
  induction entries with
  | nil => rfl
  | cons entry rest ih =>
    obtain ⟨key, value⟩ := entry
    rw [List.nodupKeys_cons] at distinct
    by_cases same : key = edge
    · subst same
      have others : rest.filter ((fun a => decide (edgeName a = key)) ∘
          fun entry => encode entry.1 entry.2) = [] := by
        rw [List.filter_eq_nil_iff]
        intro other member
        simp only [Function.comp_apply, named, decide_eq_true_eq]
        rintro rfl
        exact distinct.1 (List.mem_keys.mpr ⟨_, member⟩)
      rw [List.filter_cons_of_pos (by simp [named]), others, List.dlookup_cons_eq]
      rfl
    · rw [List.filter_cons_of_neg (by simp [named, same]), ih distinct.2,
        List.dlookup_cons_ne _ _ (Ne.symm same)]

variable (consumerStats : StringMap EdgeConsumptionStats)
  (producerStats : StringMap EdgeProductionStats)

theorem lastNamed_producerStats (edge : String) :
    (lastNamed (·.edgeName) (encodeStats consumerStats producerStats).productionStats edge).map
        decodedProduction = (producerStats.lookup edge).map sentProduction := by
  have last := lastNamed_encoded producerStats StatsResponse.ProductionStats.edgeName
    (fun edge stats => ⟨edge, stats.unitsProduced.toUInt32, stats.idleTime⟩) (fun _ _ => rfl) edge
  refine (congrArg (Option.map decodedProduction) last).trans ?_
  rw [Option.map_map]
  rfl

theorem lastNamed_consumerStats (edge : String) :
    (lastNamed (·.edgeName) (encodeStats consumerStats producerStats).consumptionStats edge).map
        decodedConsumption = (consumerStats.lookup edge).map sentConsumption := by
  have last := lastNamed_encoded consumerStats StatsResponse.ConsumptionStats.edgeName
    (fun edge stats => ⟨edge, stats.unitsConsumed.toUInt32, stats.idleTime⟩) (fun _ _ => rfl) edge
  refine (congrArg (Option.map decodedConsumption) last).trans ?_
  rw [Option.map_map]
  rfl

theorem lookup_received (edge : String) :
    (decodeConsumptionStats (encodeStats consumerStats producerStats).consumptionStats
      (decodeProductionStats (encodeStats consumerStats producerStats).productionStats ∅)).lookup
        edge =
      if edge ∈ consumerStats ∨ edge ∈ producerStats then
        some ⟨(producerStats.lookup edge).map sentProduction,
          (consumerStats.lookup edge).map sentConsumption⟩
      else none := by
  have produced := congrArg Option.isSome
    (lastNamed_producerStats consumerStats producerStats edge)
  have consumed := congrArg Option.isSome
    (lastNamed_consumerStats consumerStats producerStats edge)
  rw [Option.isSome_map, Option.isSome_map] at produced consumed
  rw [lookup_queryEdgeStats, lastNamed_producerStats, lastNamed_consumerStats]
  refine if_congr ?_ rfl rfl
  rw [produced, consumed, AList.lookup_isSome, AList.lookup_isSome, or_comm]

/-- The decoded map has exactly the edges of the two maps, with their entries. -/
def RoundTrips : Prop :=
  ∃ result, queryEdgeStats (.ok, encodeStats consumerStats producerStats) = .ok result ∧
    (∀ edge, edge ∈ result ↔ edge ∈ consumerStats ∨ edge ∈ producerStats) ∧
    ∀ edge stats, result.lookup edge = some stats →
      stats.productionStats = producerStats.lookup edge ∧
        stats.consumptionStats = consumerStats.lookup edge

theorem sentProduction_eq_iff {stats : EdgeProductionStats} :
    sentProduction stats = stats ↔ stats.unitsProduced.toNat < 2 ^ 32 := by
  rw [← toUInt64_toUInt32_eq_iff]
  cases stats
  simp [sentProduction]

theorem sentConsumption_eq_iff {stats : EdgeConsumptionStats} :
    sentConsumption stats = stats ↔ stats.unitsConsumed.toNat < 2 ^ 32 := by
  rw [← toUInt64_toUInt32_eq_iff]
  cases stats
  simp [sentConsumption]

/-- In any order of iteration, the statistics survive exactly if every unit count
has at most 32 bits. -/
theorem roundTrips_iff : RoundTrips consumerStats producerStats ↔
    (∀ edge stats, consumerStats.lookup edge = some stats → stats.unitsConsumed.toNat < 2 ^ 32) ∧
      ∀ edge stats, producerStats.lookup edge = some stats →
        stats.unitsProduced.toNat < 2 ^ 32 := by
  have received := lookup_received consumerStats producerStats
  constructor
  · rintro ⟨result, decoded, -, same⟩
    cases decoded
    constructor
    · intro edge stats found
      have present : edge ∈ consumerStats := StringMap.mem_of_lookup found
      obtain ⟨-, consumption⟩ := same edge _ ((received edge).trans (if_pos (Or.inl present)))
      rw [found, Option.map_some, Option.some.injEq] at consumption
      exact sentConsumption_eq_iff.mp consumption
    · intro edge stats found
      have present : edge ∈ producerStats := StringMap.mem_of_lookup found
      obtain ⟨production, -⟩ := same edge _ ((received edge).trans (if_pos (Or.inr present)))
      rw [found, Option.map_some, Option.some.injEq] at production
      exact sentProduction_eq_iff.mp production
  · rintro ⟨consumed, produced⟩
    refine ⟨_, rfl, ?_, ?_⟩
    · intro edge
      rw [← AList.lookup_isSome, received]
      split_ifs with present <;> simp [present]
    · intro edge stats found
      rw [received] at found
      split_ifs at found
      cases found
      constructor
      · exact (Option.map_congr (g := id) (fun s there =>
          sentProduction_eq_iff.mpr (produced edge s there))).trans Option.map_id'
      · exact (Option.map_congr (g := id) (fun s there =>
          sentConsumption_eq_iff.mpr (consumed edge s there))).trans Option.map_id'

/-- A count of 2 ^ 32 arrives as zero. -/
theorem overflowing_count_lost :
    ¬ RoundTrips ((∅ : StringMap EdgeConsumptionStats).insert "t2l" ⟨4294967296, 0⟩) ∅ := by
  rintro ⟨result, decoded, -, same⟩
  cases decoded
  have counts := (same "t2l" ⟨none, some ⟨0, 0⟩⟩ (by decide)).2
  exact absurd counts (by decide)

end IceflowExecutor
end Iceflow
