import Iceflow.Node.Repartitioning

/-! The subscriptions that a consumer has after any operations. Repartitions replace
them, statistics queries of consumers remove them, and nothing else changes them. -/
namespace Iceflow
variable [Platform] {μ : Type}

def nextPartitions (edge : String) (last : List UInt32) : Op μ → List UInt32
  | .call (.repartitionConsumer e partitions) => if e = edge then partitions else last
  | _ => last

def lastPartitions (edge : String) (ops : List (Op μ)) : List UInt32 :=
  ops.foldl (nextPartitions edge) []

def Op.queriesConsumers : Op μ → Bool
  | .call (.getConsumerStats _) => true
  | _ => false

namespace IceFlow

/-- The consumer's live subscriptions are those of a list of partitions, in order. -/
def Serving (n : IceFlow μ) (edge : String) (partitions : List UInt32) : Prop :=
  ∃ added : List Handle, n.subscriptionsOf edge = added.zip (n.requested edge partitions) ∧
    added.length = (n.requested edge partitions).length

theorem Frame.serving {n n' : IceFlow μ} (frame : Frame n n') {edge : String}
    {partitions : List UInt32} (serving : n.Serving edge partitions) :
    n'.Serving edge partitions := by
  have same : n'.requested edge partitions = n.requested edge partitions := by
    rw [requested, requested, frame.topicOf]
  rw [Serving, same, subscriptionsOf, frame.subscriptions]
  exact serving

theorem serving_nil {n : IceFlow μ} {edge : String} (nothing : n.subscriptionsOf edge = []) :
    n.Serving edge [] := by
  refine ⟨[], by rw [nothing, List.zip_nil_left], ?_⟩
  rw [requested_nil]
  rfl

theorem mem_consumers_perform {n : IceFlow μ} (wf : WellFormed n) (op : Op μ) (edge : String) :
    edge ∈ (op.perform n).iceflowConsumers ↔ edge ∈ n.iceflowConsumers := by
  cases framed : op.framed with
  | true => exact (Op.frame n framed).mem_consumers edge
  | false =>
    obtain ⟨subscriptions, consumers, performed, same⟩ := perform_unframed wf framed
    rw [performed]
    exact same edge

theorem Serving.perform {n : IceFlow μ} (wf : WellFormed n) {edge : String}
    (known : edge ∈ n.iceflowConsumers) {partitions : List UInt32}
    (serving : n.Serving edge partitions) {op : Op μ} (quiet : op.queriesConsumers = false) :
    (op.perform n).Serving edge (nextPartitions edge partitions op) := by
  cases effect_perform wf op with
  | framed frame unknown =>
    have same : nextPartitions edge partitions op = partitions := by
      unfold nextPartitions
      split
      · rename_i e requested
        rw [if_neg]
        rintro rfl
        exact AList.lookup_eq_none.mp (unknown e requested rfl) known
      · rfl
    rw [same]
    exact frame.serving serving
  | repartitions e requested consumer added called found returned done =>
    subst called
    have same (ps : List UInt32) (x : String) :
        ((Op.call (.repartitionConsumer e requested)).perform n).requested x ps =
          n.requested x ps := by
      rw [IceFlow.requested, IceFlow.requested, done.topicOf]
    simp only [nextPartitions]
    split
    · rename_i here
      subst here
      exact ⟨added, by rw [same, done.subscriptionsOf_same], by rw [same, done.length]⟩
    · rename_i other
      rw [Serving, same, done.subscriptionsOf_other (Ne.symm other)]
      exact serving
  | queries now called =>
    subst called
    contradiction

theorem Constructed.mem_consumers_run {n₀ : IceFlow μ} (constructed : n₀.Constructed)
    (ops : List (Op μ)) (edge : String) :
    edge ∈ (n₀.run ops).iceflowConsumers ↔ edge ∈ n₀.iceflowConsumers := by
  apply constructed.run_invariant (P := fun n => edge ∈ n.iceflowConsumers ↔
    edge ∈ n₀.iceflowConsumers)
  · intro n op wf same
    rw [mem_consumers_perform wf op edge, same]
  · rfl

theorem Constructed.subscriptionsOf_eq_nil {n₀ : IceFlow μ} (constructed : n₀.Constructed)
    {edge : String} : n₀.subscriptionsOf edge = [] := by
  obtain ⟨dagParser, nodeName, environment, built⟩ := constructed
  rw [subscriptionsOf, List.filter_eq_nil_iff]
  intro entry member
  rw [(construct_fresh built).backchannels entry member]
  simp

/-- After any operations but queries, a consumer serves the list it was last given. -/
theorem Constructed.serving {n₀ : IceFlow μ} (constructed : n₀.Constructed) {edge : String}
    (known : edge ∈ n₀.iceflowConsumers) {ops : List (Op μ)}
    (quiet : ∀ op ∈ ops, op.queriesConsumers = false) :
    (n₀.run ops).Serving edge (lastPartitions edge ops) := by
  induction ops using List.reverseRecOn with
  | nil =>
    exact serving_nil constructed.subscriptionsOf_eq_nil
  | append_singleton ops op ih =>
    have before := ih (fun o member => quiet o (List.mem_append_left _ member))
    rw [run_concat, lastPartitions, List.foldl_append]
    have kept : edge ∈ (n₀.run ops).iceflowConsumers :=
      (constructed.mem_consumers_run ops edge).mpr known
    exact before.perform (constructed.run_wellFormed ops) kept (quiet op (by simp))

end IceFlow
end Iceflow
