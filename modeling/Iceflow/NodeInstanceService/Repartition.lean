import Iceflow.NodeInstanceService
import Iceflow.Node.Repartitioning
import Iceflow.WordCount

/-! What the Repartition call reports and what it does. The service counts the
partitions from the lower bound in 32 bits, and the result of the consumer is
dropped, so the answer is right for ordered bounds of an edge whose topic parses. -/
namespace Iceflow
open Registration

namespace NodeInstanceService

theorem mem_partitionRange {lower upper p : UInt32} :
    p ∈ partitionRange lower upper ↔ (p - lower).toNat < (upper - lower).toNat := by
  simp only [partitionRange, List.mem_map, List.mem_range]
  constructor
  · rintro ⟨i, bound, rfl⟩
    have small : i < UInt32.size := lt_trans bound (upper - lower).toNat_lt
    rwa [UInt32.add_comm, UInt32.add_sub_cancel, UInt32.toNat_ofNat_of_lt' small]
  · intro bound
    exact ⟨(p - lower).toNat, bound, by
      rw [UInt32.ofNat_toNat, UInt32.add_comm, UInt32.sub_add_cancel]⟩

theorem nodup_partitionRange (lower upper : UInt32) : (partitionRange lower upper).Nodup := by
  apply List.Nodup.map_on _ List.nodup_range
  intro i first j second same
  have small {k : Nat} (member : k ∈ List.range (upper - lower).toNat) : k < UInt32.size :=
    lt_trans (List.mem_range.mp member) (upper - lower).toNat_lt
  rw [UInt32.add_right_inj, ← UInt32.toNat_inj, UInt32.toNat_ofNat_of_lt' (small first),
    UInt32.toNat_ofNat_of_lt' (small second)] at same
  exact same

theorem mem_partitionRange_of_le {lower upper p : UInt32} (ordered : lower ≤ upper) :
    p ∈ partitionRange lower upper ↔ lower ≤ p ∧ p < upper := by
  rw [mem_partitionRange, UInt32.toNat_sub_of_le _ _ ordered, UInt32.toNat_sub]
  rw [UInt32.le_iff_toNat_le, UInt32.lt_iff_toNat_lt] at *
  have bounds := And.intro p.toNat_lt upper.toNat_lt
  omega

/-- Reversed bounds wrap around: the lower bound itself is in the list. -/
theorem lower_mem_partitionRange {lower upper : UInt32} (reversed : upper < lower) :
    lower ∈ partitionRange lower upper := by
  rw [mem_partitionRange, UInt32.sub_self, UInt32.toNat_sub]
  rw [UInt32.lt_iff_toNat_lt] at reversed
  have bounds := And.intro lower.toNat_lt upper.toNat_lt
  show 0 < _
  omega

end NodeInstanceService

section
variable [Platform] {μ : Type}

namespace IceFlow

/-- The number of live subscriptions of the consumer of an edge for a partition. -/
def timesSubscribed (n : IceFlow μ) (edge : String) (partition : UInt32) : Nat :=
  (n.subscriptionsOf edge).countP
    (fun entry => partitionName (n.topicOf edge) partition = .ok entry.2.topic)

/-- The edge has a consumer, whose live subscriptions are one for each partition
from `lower` up to, but not including, `upper`. -/
structure Serves (n : IceFlow μ) (edge : String) (lower upper : UInt32) : Prop where
  consumer : edge ∈ n.iceflowConsumers
  once : ∀ p, lower ≤ p → p < upper → n.timesSubscribed edge p = 1
  others : ∀ entry ∈ n.subscriptionsOf edge, ∃ p, lower ≤ p ∧ p < upper ∧
    partitionName (n.topicOf edge) p = .ok entry.2.topic

namespace Repartitioned

variable {n n' : IceFlow μ} {edge : String} {consumer : IceflowConsumer μ}
  {partitions : List UInt32} {added : List Handle}

theorem timesSubscribed (done : Repartitioned n edge consumer partitions added n') {topic : Name}
    (parsed : Platform.nameOfUri (n.topicOf edge) = some topic) (p : UInt32) :
    n'.timesSubscribed edge p = partitions.count p := by
  have requested : n.requested edge partitions =
      partitions.map (IceflowConsumer.subscriptionFor topic edge) := by
    simp [IceFlow.requested, parsed]
  have subscriptions : (added.zip (n.requested edge partitions)).map Prod.snd =
      partitions.map (IceflowConsumer.subscriptionFor topic edge) := by
    rw [List.map_snd_zip (Nat.le_of_eq done.length.symm), requested]
  rw [IceFlow.timesSubscribed, done.subscriptionsOf_same, done.topicOf,
    partitionName_parsed parsed]
  calc (added.zip (n.requested edge partitions)).countP (fun entry =>
        (.ok (topic ++ [Platform.fromNumber p.toUInt64]) : Except Exception Name) =
          .ok entry.2.topic)
      = ((added.zip (n.requested edge partitions)).map Prod.snd).countP (fun subscription =>
          topic ++ [Platform.fromNumber p.toUInt64] = subscription.topic) := by
        rw [List.countP_map]
        exact List.countP_congr (fun entry _ => by simp)
    _ = partitions.countP (fun q => q = p) := by
        rw [subscriptions, List.countP_map]
        exact List.countP_congr (fun q _ => by simp [IceflowConsumer.subscriptionFor_topic_inj])
    _ = partitions.count p := List.countP_congr (fun q _ => by simp)

end Repartitioned

/-- What a consumer serves after a repartition over the bounds of a request. -/
theorem Repartitioned.serves_iff {n n' : IceFlow μ} {edge : String}
    {consumer : IceflowConsumer μ} {lower upper : UInt32} {added : List Handle}
    (done : Repartitioned n edge consumer (NodeInstanceService.partitionRange lower upper)
      added n') :
    Serves n' edge lower upper ↔
      if (Platform.nameOfUri (n.topicOf edge)).isSome then lower ≤ upper else upper ≤ lower := by
  have present : edge ∈ n'.iceflowConsumers :=
    StringMap.mem_of_lookup ((done.lookup edge).trans (if_pos rfl))
  cases parsed : Platform.nameOfUri (n.topicOf edge) with
  | none =>
    have nothing : n'.subscriptionsOf edge = [] := by
      rw [done.subscriptionsOf_same]
      simp [requested, parsed]
    have never (p : UInt32) : n'.timesSubscribed edge p = 0 := by
      simp [IceFlow.timesSubscribed, nothing]
    constructor
    · intro serves
      by_contra nonempty
      have once := serves.once lower (UInt32.le_refl lower) (UInt32.not_le.mp nonempty)
      rw [never] at once
      contradiction
    · intro empty
      refine ⟨present, ?_, by simp [nothing]⟩
      intro p above below
      exact absurd (UInt32.le_trans empty above) (UInt32.not_le.mpr below)
  | some topic =>
    have mem_requested (entry : Handle × Subscription)
        (member : entry ∈ n'.subscriptionsOf edge) :
        ∃ p ∈ NodeInstanceService.partitionRange lower upper,
          partitionName (n'.topicOf edge) p = .ok entry.2.topic := by
      rw [done.subscriptionsOf_same] at member
      obtain ⟨_, t, p, parsed', listed, made⟩ := receiver_of_requested (List.of_mem_zip member).2
      rw [done.topicOf, made]
      exact ⟨p, listed, partitionName_parsed parsed' p⟩
    constructor
    · intro serves
      by_contra reversed
      have first := NodeInstanceService.lower_mem_partitionRange (UInt32.not_le.mp reversed)
      have subscribed : 0 < n'.timesSubscribed edge lower := by
        rw [done.timesSubscribed parsed]
        exact List.count_pos_iff.mpr first
      obtain ⟨entry, member, _⟩ := List.countP_pos_iff.mp subscribed
      obtain ⟨p, above, below, _⟩ := serves.others entry member
      exact reversed (UInt32.le_of_lt (UInt32.lt_of_le_of_lt above below))
    · intro ordered
      refine ⟨present, ?_, ?_⟩
      · intro p above below
        rw [done.timesSubscribed parsed]
        exact List.count_eq_one_of_mem (NodeInstanceService.nodup_partitionRange lower upper)
          ((NodeInstanceService.mem_partitionRange_of_le ordered).mpr ⟨above, below⟩)
      · intro entry member
        obtain ⟨p, listed, named⟩ := mem_requested entry member
        obtain ⟨above, below⟩ :=
          (NodeInstanceService.mem_partitionRange_of_le ordered).mp listed
        exact ⟨p, above, below, named⟩

end IceFlow

namespace NodeInstanceService

structure DoesWhatItReports (n : IceFlow μ) (request : RepartitionRequest) : Prop where
  ok : (repartition n request).1.1 = .ok →
    IceFlow.Serves (repartition n request).2 request.edgeName request.lowerPartitionBound
      request.upperPartitionBound
  error : (repartition n request).1.1 ≠ .ok →
    ∀ edge, (repartition n request).2.subscriptionsOf edge = n.subscriptionsOf edge
  otherEdges : ∀ edge ≠ request.edgeName,
    (repartition n request).2.subscriptionsOf edge = n.subscriptionsOf edge

theorem repartition_unknown {n : IceFlow μ} {request : RepartitionRequest}
    (unknown : n.iceflowConsumers.lookup request.edgeName = none) :
    (repartition n request).1.1 ≠ .ok ∧ (repartition n request).2 = n := by
  simp [repartition, IceFlow.repartitionConsumer_unknown unknown]

theorem repartition_known {n : IceFlow μ} (wf : IceFlow.WellFormed n)
    {request : RepartitionRequest} {consumer : IceflowConsumer μ}
    (found : n.iceflowConsumers.lookup request.edgeName = some consumer) :
    (repartition n request).1.1 = .ok ∧ ∃ added,
      IceFlow.Repartitioned n request.edgeName consumer
        (partitionRange request.lowerPartitionBound request.upperPartitionBound) added
        (repartition n request).2 := by
  obtain ⟨result, added, done⟩ := IceFlow.repartitionConsumer_known wf found
    (partitionRange request.lowerPartitionBound request.upperPartitionBound)
  generalize after_eq : n.repartitionConsumer request.edgeName
    (partitionRange request.lowerPartitionBound request.upperPartitionBound) = after at result done
  obtain ⟨_, n'⟩ := after
  obtain rfl := result
  simp only [repartition, after_eq]
  exact ⟨trivial, added, done⟩

/-- In a reachable state the answer is right exactly if the edge has no consumer,
or its topic parses and the bounds are ordered, or its topic does not parse and
the bounds ask for nothing. -/
theorem doesWhatItReports_iff {n₀ : IceFlow μ} (constructed : n₀.Constructed) (ops : List (Op μ))
    (request : RepartitionRequest) :
    DoesWhatItReports (n₀.run ops) request ↔
      (n₀.run ops).iceflowConsumers.lookup request.edgeName = none ∨
        if (Platform.nameOfUri ((n₀.run ops).topicOf request.edgeName)).isSome
        then request.lowerPartitionBound ≤ request.upperPartitionBound
        else request.upperPartitionBound ≤ request.lowerPartitionBound := by
  have wf := constructed.run_wellFormed ops
  generalize n₀.run ops = n at wf ⊢
  cases found : n.iceflowConsumers.lookup request.edgeName with
  | none =>
    obtain ⟨failed, same⟩ := repartition_unknown found
    have kept (edge : String) :
        (repartition n request).2.subscriptionsOf edge = n.subscriptionsOf edge := by rw [same]
    exact iff_of_true ⟨fun ok => absurd ok failed, fun _ => kept, fun edge _ => kept edge⟩
      (Or.inl rfl)
  | some consumer =>
    obtain ⟨answered, added, done⟩ := repartition_known wf found
    rw [← done.serves_iff]
    constructor
    · intro reports
      exact Or.inr (reports.ok answered)
    · rintro (missing | serves)
      · contradiction
      · exact ⟨fun _ => serves, fun failed => absurd answered failed,
          fun edge different => done.subscriptionsOf_other different⟩

end NodeInstanceService
end

section
open scoped Iceflow.Reference
open WordCount NodeInstanceService

theorem doesWhatItReports_iff_reader :
    DoesWhatItReports reader ⟨"t2l", 1, 3⟩ ↔
      reader.iceflowConsumers.lookup "t2l" = none ∨
        if (Platform.nameOfUri (reader.topicOf "t2l")).isSome then (1 : UInt32) ≤ 3
        else (3 : UInt32) ≤ 1 :=
  doesWhatItReports_iff (constructed_instanceOf dag "lines2words" "1" rfl) _ _

/-- Reversed bounds are answered OK and subscribe a partition outside the range. -/
theorem reversed_bounds_subscribed :
    (repartition reader ⟨"t2l", 4294967295, 0⟩).1.1 = .ok ∧
      (repartition reader ⟨"t2l", 4294967295, 0⟩).2.timesSubscribed "t2l" 4294967295 = 1 ∧
      ¬ DoesWhatItReports reader ⟨"t2l", 4294967295, 0⟩ := by
  have answered : (repartition reader ⟨"t2l", 4294967295, 0⟩).1.1 = .ok := by decide
  have subscribed : (repartition reader ⟨"t2l", 4294967295, 0⟩).2.timesSubscribed "t2l"
      4294967295 = 1 := by decide
  refine ⟨answered, subscribed, fun reports => ?_⟩
  have live : 0 < (repartition reader ⟨"t2l", 4294967295, 0⟩).2.timesSubscribed "t2l"
      4294967295 := subscribed ▸ Nat.one_pos
  obtain ⟨entry, member, _⟩ := List.countP_pos_iff.mp live
  obtain ⟨p, above, below, _⟩ := (reports.ok answered).others entry member
  exact absurd below (by simp)

end
end Iceflow
