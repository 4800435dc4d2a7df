import Iceflow.Executor.Remote
import Iceflow.NodeInstanceService.Handlers

/-! A handler that nothing comes between does what the request does in one step, so serving a
request at once is one of the interleavings of its handler. -/
namespace Iceflow
open IceFlow
variable [Platform] {κ μ : Type}

namespace NodeInstanceService
namespace Handler

/-- The steps of a handler with nothing between them. -/
def follow (next : Handler μ × IceFlow μ) (readings : List Int) : Handler μ × IceFlow μ :=
  readings.foldl (fun next now => proceed next.2 now next.1) next

theorem follow_cons (next : Handler μ × IceFlow μ) (now : Int) (readings : List Int) :
    follow next (now :: readings) = follow (proceed next.2 now next.1) readings := rfl

/-- The end of `Repartition`, after the loop over the partitions. -/
def ofResult (request : RepartitionRequest) : Except Exception Unit → Handler μ
  | .ok () => repartitioned request
  | .error e => if e.isRuntimeError then repartitioned request else failed request

theorem follow_subscribing (n : IceFlow μ) (request : RepartitionRequest)
    (partitions : List UInt32) (consumer : IceflowConsumer μ) (svs : SVSPubSub) :
    ∃ readings, follow (.subscribing request partitions, { n with
        svsPubSub := svs
        iceflowConsumers := n.iceflowConsumers.insert request.edgeName consumer }) readings =
      (ofResult request (consumer.subscribeToPartitions svs partitions).1, { n with
        svsPubSub := (consumer.subscribeToPartitions svs partitions).2.2
        iceflowConsumers := n.iceflowConsumers.insert request.edgeName
          (consumer.subscribeToPartitions svs partitions).2.1 }) := by
  induction partitions generalizing consumer svs with
  | nil => exact ⟨[0], rfl⟩
  | cons partition rest ih =>
    cases subscribed : consumer.subscribeToTopicPartition svs partition with
    | error e =>
      refine ⟨[0], ?_⟩
      simp [follow, proceed, IceflowConsumer.subscribeToPartitions, subscribed, ofResult]
    | ok next =>
      obtain ⟨readings, followed⟩ := ih next.1 next.2
      refine ⟨0 :: readings, ?_⟩
      rw [follow_cons, IceflowConsumer.subscribeToPartitions, subscribed]
      simpa [proceed, subscribed, AList.insert_insert] using followed

theorem follow_repartition (n : IceFlow μ) (request : RepartitionRequest) :
    ∃ readings, follow (repartition n request) readings =
      (.answered (.repartition (NodeInstanceService.repartition n request).1.1
        (NodeInstanceService.repartition n request).1.2),
        (NodeInstanceService.repartition n request).2) := by
  cases found : n.iceflowConsumers.lookup request.edgeName with
  | none =>
    refine ⟨[], ?_⟩
    simp [follow, repartition, NodeInstanceService.repartition, repartitionConsumer, found, failed]
  | some consumer =>
    obtain ⟨readings, followed⟩ := follow_subscribing n request
      (partitionRange request.lowerPartitionBound request.upperPartitionBound)
      (consumer.unsubscribeFromAllPartitions n.svsPubSub).1
      (consumer.unsubscribeFromAllPartitions n.svsPubSub).2
    refine ⟨readings, ?_⟩
    simp only [repartition, found]
    rw [followed]
    simp only [NodeInstanceService.repartition, repartitionConsumer, found,
      IceflowConsumer.repartition]
    generalize (consumer.unsubscribeFromAllPartitions n.svsPubSub).1.subscribeToPartitions
      (consumer.unsubscribeFromAllPartitions n.svsPubSub).2
      (partitionRange request.lowerPartitionBound request.upperPartitionBound) = ended
    obtain ⟨result, consumer', svs⟩ := ended
    cases result with
    | ok value => rfl
    | error e => cases runtime : e.isRuntimeError <;> simp [ofResult, runtime, Except.map,
        repartitioned, failed]

theorem follow_consumers (n : IceFlow μ) (clock : String → Int)
    (entries : List (Sigma fun _ : String => IceflowConsumer μ))
    (consumerStats : StringMap EdgeConsumptionStats)
    (found : ∀ entry ∈ entries, n.iceflowConsumers.lookup entry.1 = some entry.2) :
    ∃ readings, follow (.consumers (entries.map Sigma.fst) consumerStats, n) readings =
      let after := entries.foldl (fun (result, n) consumer =>
        let (stats, copy) := consumer.2.getConsumptionStats (clock consumer.1)
        (StringMap.emplace result consumer.1 stats,
          { n with svsPubSub := copy.destroy n.svsPubSub })) (consumerStats, n)
      (.producers after.2.iceflowProducers.keys after.1 ∅, after.2) := by
  induction entries generalizing n consumerStats with
  | nil => exact ⟨[0], rfl⟩
  | cons entry rest ih =>
    obtain ⟨readings, followed⟩ := ih { n with
        svsPubSub := (entry.2.getConsumptionStats (clock entry.1)).2.destroy n.svsPubSub }
      (consumerStats.emplace entry.1 (entry.2.getConsumptionStats (clock entry.1)).1)
      (fun e member => found e (List.mem_cons_of_mem _ member))
    refine ⟨0 :: clock entry.1 :: readings, ?_⟩
    rw [follow_cons, follow_cons]
    simp only [List.map_cons, proceed, found entry List.mem_cons_self]
    exact followed

theorem follow_producers (n : IceFlow μ) (clock : String → Int)
    (entries : List (Sigma fun _ : String => IceflowProducer))
    (consumerStats : StringMap EdgeConsumptionStats)
    (producerStats : StringMap EdgeProductionStats)
    (found : ∀ entry ∈ entries, n.iceflowProducers.lookup entry.1 = some entry.2) :
    ∃ readings, follow (.producers (entries.map Sigma.fst) consumerStats producerStats, n)
      readings = (.answered (.queryStats .ok (encodeStats consumerStats
        (entries.foldl (fun result producer => StringMap.emplace result producer.1
          (producer.2.getProductionStats (clock producer.1)).1) producerStats))), n) := by
  induction entries generalizing producerStats with
  | nil => exact ⟨[0], rfl⟩
  | cons entry rest ih =>
    obtain ⟨readings, followed⟩ := ih
      (producerStats.emplace entry.1 (entry.2.getProductionStats (clock entry.1)).1)
      (fun e member => found e (List.mem_cons_of_mem _ member))
    refine ⟨clock entry.1 :: readings, ?_⟩
    rw [follow_cons]
    simp only [List.map_cons, proceed, found entry List.mem_cons_self]
    exact followed

theorem follow_append (next : Handler μ × IceFlow μ) (first second : List Int) :
    follow next (first ++ second) = follow (follow next first) second := List.foldl_append

theorem follow_queryStats (n : IceFlow μ) (clocks : Clocks) :
    ∃ readings, follow (queryStats n, n) readings =
      (.answered (.queryStats
        (NodeInstanceService.queryStats n clocks.consumers clocks.producers).1.1
        (NodeInstanceService.queryStats n clocks.consumers clocks.producers).1.2),
        (NodeInstanceService.queryStats n clocks.consumers clocks.producers).2) := by
  obtain ⟨first, consumed⟩ := follow_consumers n clocks.consumers n.iceflowConsumers.entries ∅
    (fun entry member => AList.mem_lookup_iff.mpr member)
  obtain ⟨second, produced⟩ := follow_producers (n.getConsumerStats clocks.consumers).2
    clocks.producers (n.getConsumerStats clocks.consumers).2.iceflowProducers.entries
    (n.getConsumerStats clocks.consumers).1 ∅ (fun entry member => AList.mem_lookup_iff.mpr member)
  refine ⟨first ++ second, ?_⟩
  rw [follow_append]
  exact (congrArg (fun next => follow next second) consumed).trans produced

end Handler

namespace Handling

def Step.begin (t : κ) : NodeInstance.Request → Step κ μ
  | .repartition request => .repartition t request
  | .queryStats => .queryStats t

variable [DecidableEq κ]

theorem run_follow (s : Handling κ μ) (t : κ) (readings : List Int) :
    Transition.run perform s (readings.map (.proceed t)) =
      s.move t (Handler.follow (s.handler t, s.node) readings) := by
  induction readings generalizing s with
  | nil => simp [move, Handler.follow]
  | cons now rest ih =>
    rw [List.map_cons, Transition.run_cons, ih, Handler.follow_cons]
    simp [perform, move]

/-- A handler that takes all its steps before anything else happens serves its request. -/
theorem run_uninterrupted (s : Handling κ μ) {t : κ} (idle : s.handler t = .idle)
    (clocks : Clocks) (request : NodeInstance.Request) :
    ∃ readings : List Int,
      Transition.run perform s (.begin t request :: readings.map (.proceed t)) =
        s.move t (.answered (serve s.node clocks request).1, (serve s.node clocks request).2) := by
  cases request with
  | repartition request =>
    obtain ⟨readings, followed⟩ := Handler.follow_repartition s.node request
    refine ⟨readings, ?_⟩
    rw [Transition.run_cons, run_follow]
    simp only [Step.begin, perform, idle, move, Function.update_self, Function.update_idem]
    rw [followed]
    rfl
  | queryStats =>
    obtain ⟨readings, followed⟩ := Handler.follow_queryStats s.node clocks
    refine ⟨readings, ?_⟩
    rw [Transition.run_cons, run_follow]
    simp only [Step.begin, perform, idle, move, Function.update_self, Function.update_idem]
    rw [followed]
    rfl

end Handling
end NodeInstanceService
end Iceflow
