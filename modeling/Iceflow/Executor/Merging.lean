import Iceflow.Executor

/-! What the executor makes of any response: of several entries for one edge the last
one counts, and neither loop touches what the other one sets. -/
namespace Iceflow.IceflowExecutor

def lastNamed {A : Type} (edgeName : A → String) (entries : List A) (edge : String) : Option A :=
  (entries.filter (fun entry => edgeName entry = edge)).getLast?

theorem lastNamed_eq_none {A : Type} {edgeName : A → String} {entries : List A} {edge : String} :
    lastNamed edgeName entries edge = none ↔ ∀ entry ∈ entries, edgeName entry ≠ edge := by
  rw [lastNamed, List.getLast?_eq_none_iff, List.filter_eq_nil_iff]
  simp

theorem lastNamed_isSome {A : Type} {edgeName : A → String} {entries : List A} {edge : String} :
    (lastNamed edgeName entries edge).isSome ↔ ∃ entry ∈ entries, edgeName entry = edge := by
  rw [lastNamed, List.getLast?_isSome, ne_eq, List.filter_eq_nil_iff]
  simp

def decodedProduction (productionStat : StatsResponse.ProductionStats) : EdgeProductionStats :=
  ⟨productionStat.unitsProduced.toUInt64, productionStat.idleTime⟩

def decodedConsumption (consumptionStat : StatsResponse.ConsumptionStats) : EdgeConsumptionStats :=
  ⟨consumptionStat.unitsConsumed.toUInt64, consumptionStat.idleTime⟩

theorem lookup_decodeProductionStats (productionStats : List StatsResponse.ProductionStats)
    (m : StringMap EdgeStats) (edge : String) :
    (decodeProductionStats productionStats m).lookup edge =
      (lastNamed (·.edgeName) productionStats edge).elim (m.lookup edge)
        (fun productionStat => some ⟨some (decodedProduction productionStat), none⟩) :=
  StringMap.lookup_foldl_insert StatsResponse.ProductionStats.edgeName
    (fun productionStat _ => (⟨some (decodedProduction productionStat), none⟩ : EdgeStats))
    (fun _ _ _ => rfl) productionStats m edge

theorem lookup_decodeConsumptionStats (consumptionStats : List StatsResponse.ConsumptionStats)
    (m : StringMap EdgeStats) (edge : String) :
    (decodeConsumptionStats consumptionStats m).lookup edge =
      (lastNamed (·.edgeName) consumptionStats edge).elim (m.lookup edge)
        (fun consumptionStat => some ⟨(m.lookup edge).bind EdgeStats.productionStats,
          some (decodedConsumption consumptionStat)⟩) := by
  have loop := StringMap.lookup_foldl_insert StatsResponse.ConsumptionStats.edgeName
    (fun consumptionStat old => (⟨old.bind EdgeStats.productionStats,
      some (decodedConsumption consumptionStat)⟩ : EdgeStats)) (fun _ _ _ => rfl)
    consumptionStats m edge
  refine Eq.trans ?_ loop
  rw [decodeConsumptionStats]
  congr 2
  funext m consumptionStat
  -- Both branches of the loop set the consumption statistics and keep the rest.
  dsimp only
  cases m.lookup consumptionStat.edgeName <;> rfl

theorem lookup_queryEdgeStats (response : StatsResponse) (edge : String) :
    (decodeConsumptionStats response.consumptionStats
      (decodeProductionStats response.productionStats ∅)).lookup edge =
      if (lastNamed (·.edgeName) response.productionStats edge).isSome ∨
          (lastNamed (·.edgeName) response.consumptionStats edge).isSome then
        some ⟨(lastNamed (·.edgeName) response.productionStats edge).map decodedProduction,
          (lastNamed (·.edgeName) response.consumptionStats edge).map decodedConsumption⟩
      else none := by
  rw [lookup_decodeConsumptionStats, lookup_decodeProductionStats]
  cases lastNamed (·.edgeName) response.productionStats edge <;>
    cases lastNamed (·.edgeName) response.consumptionStats edge <;> rfl

/-- The map has an entry for each edge of the two lists, with the last statistics of
either kind; a kind is absent where its list has no entry. -/
structure Merged (response : StatsResponse) (result : StringMap EdgeStats) : Prop where
  edges : ∀ edge, edge ∈ result ↔
    (∃ entry ∈ response.productionStats, entry.edgeName = edge) ∨
      ∃ entry ∈ response.consumptionStats, entry.edgeName = edge
  production : ∀ edge stats, result.lookup edge = some stats → stats.productionStats =
    (lastNamed (·.edgeName) response.productionStats edge).map decodedProduction
  consumption : ∀ edge stats, result.lookup edge = some stats → stats.consumptionStats =
    (lastNamed (·.edgeName) response.consumptionStats edge).map decodedConsumption
  noProduction : ∀ edge stats, result.lookup edge = some stats →
    (stats.productionStats = none ↔ ∀ entry ∈ response.productionStats, entry.edgeName ≠ edge)
  noConsumption : ∀ edge stats, result.lookup edge = some stats →
    (stats.consumptionStats = none ↔ ∀ entry ∈ response.consumptionStats, entry.edgeName ≠ edge)

theorem queryEdgeStats_merged (response : StatsResponse) :
    ∃ result, queryEdgeStats (.ok, response) = .ok result ∧ Merged response result := by
  have received := lookup_queryEdgeStats response
  have found : ∀ edge stats, (decodeConsumptionStats response.consumptionStats
      (decodeProductionStats response.productionStats ∅)).lookup edge = some stats → stats =
        ⟨(lastNamed (·.edgeName) response.productionStats edge).map decodedProduction,
          (lastNamed (·.edgeName) response.consumptionStats edge).map decodedConsumption⟩ := by
    intro edge stats there
    rw [received] at there
    split_ifs at there
    exact (Option.some.inj there).symm
  refine ⟨_, rfl, ?_, ?_, ?_, ?_, ?_⟩
  · intro edge
    rw [← AList.lookup_isSome, received, ← lastNamed_isSome, ← lastNamed_isSome]
    split_ifs with present <;> simp [present]
  · intro edge stats there
    rw [found edge stats there]
  · intro edge stats there
    rw [found edge stats there]
  · intro edge stats there
    rw [found edge stats there, Option.map_eq_none_iff, lastNamed_eq_none]
  · intro edge stats there
    rw [found edge stats there, Option.map_eq_none_iff, lastNamed_eq_none]

end Iceflow.IceflowExecutor
