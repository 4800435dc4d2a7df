import Iceflow.Node.Deliveries

/-! The items of a producer in the publication log of its node. The log only grows,
and an item keeps the index at which it was pushed. -/
namespace Iceflow.IceFlow
variable [Platform] {μ : Type}

/-- No operation changes the application, or a producer but for its generator, its
partition set and its statistics. -/
theorem producers_perform {n : IceFlow μ} (wf : WellFormed n) (op : Op μ) :
    (op.perform n).syncPrefix = n.syncPrefix ∧
      ∀ edge, ((op.perform n).iceflowProducers.lookup edge).map IceflowProducer.identity =
        (n.iceflowProducers.lookup edge).map IceflowProducer.identity := by
  cases framed : op.framed with
  | true => exact ⟨(Op.frame n framed).syncPrefix, (Op.frame n framed).producers⟩
  | false =>
    obtain ⟨subscriptions, consumers, performed, _⟩ := perform_unframed wf framed
    rw [performed]
    exact ⟨rfl, fun _ => rfl⟩

theorem Constructed.run_producers {n₀ : IceFlow μ} (constructed : n₀.Constructed)
    (ops : List (Op μ)) : (n₀.run ops).syncPrefix = n₀.syncPrefix ∧
      ∀ edge, ((n₀.run ops).iceflowProducers.lookup edge).map IceflowProducer.identity =
        (n₀.iceflowProducers.lookup edge).map IceflowProducer.identity := by
  apply constructed.run_invariant (P := fun n => n.syncPrefix = n₀.syncPrefix ∧
    ∀ edge, (n.iceflowProducers.lookup edge).map IceflowProducer.identity =
      (n₀.iceflowProducers.lookup edge).map IceflowProducer.identity)
  · intro n op wf same
    obtain ⟨application, producers⟩ := producers_perform wf op
    exact ⟨application.trans same.1, fun edge => (producers edge).trans (same.2 edge)⟩
  · exact ⟨rfl, fun _ => rfl⟩

theorem publications_prefix_perform {n : IceFlow μ} (wf : WellFormed n) (op : Op μ) :
    n.svsPubSub.publications <+: (op.perform n).svsPubSub.publications := by
  cases appends_perform wf op with
  | pushes outputs publications pushed history =>
    rw [publications]
    exact List.prefix_append _ _
  | handles handle item now edge consumerCallback outputs acks events delivery reaches handled =>
    subst delivery
    rw [Op.perform, handled.publications]
    exact List.prefix_append _ _

theorem publications_prefix_run {n : IceFlow μ} (wf : WellFormed n) (ops : List (Op μ)) :
    n.svsPubSub.publications <+: (n.run ops).svsPubSub.publications := by
  induction ops generalizing n with
  | nil => exact List.prefix_refl _
  | cons op rest ih =>
    exact (publications_prefix_perform wf op).trans (ih (wellFormed_perform wf op))

/-- What the pub/sub hands over of an item that a call pushed: its bytes, under the
partition that the producer drew. -/
theorem pushed_item {n₀ : IceFlow μ} (constructed : n₀.Constructed) {edge : String}
    {producer : IceflowProducer} (found : n₀.iceflowProducers.lookup edge = some producer)
    {ops first rest : List (Op μ)} {payload : Bytes}
    (split : ops = first ++ .call (.pushData edge payload) :: rest) :
    ∃ p item, (n₀.run first).nextPartition edge = some p ∧ p < producer.numberOfPartitions ∧
      (n₀.run ops).svsPubSub.subscriptionData (n₀.run first).svsPubSub.publications.length =
        some item ∧
      partitionName (n₀.topicOf edge) p = .ok item.name ∧ item.data = payload := by
  obtain ⟨application, producers⟩ := constructed.run_producers first
  have wf := constructed.run_wellFormed first
  obtain ⟨current, held, same⟩ : ∃ current, (n₀.run first).iceflowProducers.lookup edge =
      some current ∧ current.identity = producer.identity := by
    have kept := producers edge
    rw [found, Option.map_some, Option.map_eq_some_iff] at kept
    exact kept
  obtain ⟨_, publication, pushed⟩ := pushData_known wf (StringMap.mem_of_lookup held) payload
  obtain ⟨p, drawn, named⟩ := pushed.drawn
  have log : (n₀.run ops).svsPubSub.publications[(n₀.run first).svsPubSub.publications.length]? =
      some publication := by
    have whole : n₀.run ops =
        ((Op.call (.pushData edge payload)).perform (n₀.run first)).run rest :=
      split ▸ Transition.run_append Op.perform n₀ first _
    obtain ⟨later, grown⟩ :=
      publications_prefix_run (wellFormed_perform wf (.call (.pushData edge payload))) rest
    have pushed_log : ((Op.call (.pushData edge payload)).perform
        (n₀.run first)).svsPubSub.publications =
        (n₀.run first).svsPubSub.publications ++ [publication] := pushed.publications
    rw [whole, ← grown, pushed_log]
    simp
  refine ⟨p, _, drawn, ?_, by rw [SVSPubSub.subscriptionData, log]; rfl, ?_, pushed.data⟩
  · rw [nextPartition, held, Option.map_some, Option.some.injEq] at drawn
    have number : current.numberOfPartitions = producer.numberOfPartitions :=
      congrArg (fun identity => identity.2.2.2.1) same
    rw [← drawn, ← number]
    have positive : 0 < current.numberOfPartitions.toNat :=
      Nat.pos_of_ne_zero (fun zero =>
        current.numberOfPartitions_ne_zero (UInt32.toNat_inj.mp zero))
    rw [UInt32.lt_iff_toNat_lt, IceflowProducer.getNextPartitionNumber, UInt32.toNat_mod]
    exact Nat.mod_lt _ positive
  · rw [topicOf, ← application]
    exact named

end Iceflow.IceFlow
