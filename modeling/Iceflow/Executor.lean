import Iceflow.NodeInstanceService

/-! The executor's side of a statistics query: it decodes the response of a node
instance into one entry for each edge. -/
namespace Iceflow

structure EdgeStats where
  productionStats : Option EdgeProductionStats
  consumptionStats : Option EdgeConsumptionStats
  deriving DecidableEq

namespace IceflowExecutor

/-- The first loop: `result[edgeName] = edgeStats` overwrites. -/
def decodeProductionStats (productionStats : List StatsResponse.ProductionStats)
    (result : StringMap EdgeStats) : StringMap EdgeStats :=
  productionStats.foldl (fun result productionStat =>
    result.insert productionStat.edgeName
      ⟨some ⟨productionStat.unitsProduced.toUInt64, productionStat.idleTime⟩, none⟩) result

def decodeConsumptionStats (consumptionStats : List StatsResponse.ConsumptionStats)
    (result : StringMap EdgeStats) : StringMap EdgeStats :=
  consumptionStats.foldl (fun result consumptionStat =>
    let internalConsumptionStats : Option EdgeConsumptionStats :=
      some ⟨consumptionStat.unitsConsumed.toUInt64, consumptionStat.idleTime⟩
    match result.lookup consumptionStat.edgeName with
    | some edgeStats => result.insert consumptionStat.edgeName
        { edgeStats with consumptionStats := internalConsumptionStats }
    | none => result.insert consumptionStat.edgeName ⟨none, internalConsumptionStats⟩) result

/-- On what the call to the node instance returned. -/
def queryEdgeStats (answer : Status × StatsResponse) : Except Exception (StringMap EdgeStats) :=
  match answer.1 with
  | .ok => .ok (decodeConsumptionStats answer.2.consumptionStats
      (decodeProductionStats answer.2.productionStats ∅))
  | .invalidArgument _ => .error (.runtimeError "Failed to query stats from NodeInstance.")

end IceflowExecutor
end Iceflow
