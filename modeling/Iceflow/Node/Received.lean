import Iceflow.Node.Callbacks
import Iceflow.Node.Serving

/-! What a node is given, and to which of its consumers: callbacks stay registered, and the
callback of an edge is called with what is handed to the subscriptions of its consumer. -/
namespace Iceflow
variable [Platform] {μ : Type}

def Op.repartitionsConsumer (edge : String) : Op μ → Bool
  | .call (.repartitionConsumer e _) => e = edge
  | _ => false

def Op.called : Op μ → Option (Call μ)
  | .call c => some c
  | .deliver _ _ _ => none

namespace IceFlow

/-- A consumer without subscriptions is not called. -/
theorem invokedItems_perform {n : IceFlow μ} (wf : WellFormed n) (op : Op μ) {edge : String}
    (nothing : n.subscriptionsOf edge = []) :
    (op.perform n).invokedItems edge = n.invokedItems edge := by
  cases appends_perform wf op with
  | pushes outputs publications pushed history => rw [invokedItems, history, invokedItems]
  | handles handle item now e callback outputs acks events delivery reaches handled =>
    subst delivery
    have different : e ≠ edge := by
      rintro rfl
      obtain ⟨subscription, found, _, receiver⟩ := reaches.subscribed
      have member : (handle, subscription) ∈ n.subscriptionsOf e :=
        List.mem_filter.mpr ⟨Registration.Registry.mem_of_find? found, by simpa using receiver⟩
      rw [nothing] at member
      cases member
    rw [invokedItems, Op.perform, handled.history, List.filterMap_append, invokedItems]
    by_cases completes : n.Completes (callback n.memory item.data)
    · obtain ⟨_, _, rfl⟩ := handled.completed completes
      simp [invokedItem, different]
    · obtain ⟨_, _, rfl⟩ := handled.failed completes
      simp [invokedItem, different]

theorem invokedItems_call {n : IceFlow μ} (wf : WellFormed n) (c : Call μ) (edge : String) :
    (c.perform n).invokedItems edge = n.invokedItems edge := by
  rw [invokedItems, (memory_call wf c).2, invokedItems]

theorem ready_of_callback {n : IceFlow μ} (wf : WellFormed n) {edge : String}
    (registered : n.callbackOf edge ≠ none) : n.Ready edge := by
  obtain ⟨callback, held⟩ := Option.ne_none_iff_exists'.mp registered
  obtain ⟨consumer, found, same⟩ := Option.bind_eq_some_iff.mp held
  exact ⟨wf, consumer, callback, found, same⟩

theorem subscriptionsOf_of_hits {n : IceFlow μ} {edge : String} {handle : Handle}
    {item : SubscriptionData} (hit : n.hits edge handle item = true) :
    ∃ subscription, (handle, subscription) ∈ n.subscriptionsOf edge ∧
      subscription.topic <+: item.name := by
  obtain ⟨subscription, found, matched, receiver⟩ := hits_iff.mp hit
  exact ⟨subscription, List.mem_filter.mpr
    ⟨Registration.Registry.mem_of_find? found, by simpa using receiver⟩, matched⟩

/-- A delivery calls the callback of an edge if it hits, where subscriptions are made after
callbacks are registered. -/
theorem invokedItems_deliver {n : IceFlow μ} (wf : WellFormed n) {edge : String}
    (callback : n.subscriptionsOf edge ≠ [] → n.callbackOf edge ≠ none) (handle : Handle)
    (item : SubscriptionData) (now : Int) :
    (n.deliver handle item now).2.invokedItems edge =
      n.invokedItems edge ++ if n.hits edge handle item then [item] else [] := by
  by_cases nothing : n.subscriptionsOf edge = []
  · have missed : n.hits edge handle item = false := by
      by_contra hit
      obtain ⟨subscription, member, _⟩ := subscriptionsOf_of_hits (Bool.eq_true_of_not_eq_false hit)
      rw [nothing] at member
      cases member
    have unchanged := invokedItems_perform wf (.deliver handle item now) nothing
    rw [missed, if_neg Bool.false_ne_true, List.append_nil]
    exact unchanged
  · obtain ⟨events, history, invoked⟩ :=
      (ready_of_callback wf (callback nothing)).invokes handle item now
    rw [invokedItems, history, List.filterMap_append, invoked, invokedItems]

theorem subscriptionsOf_perform {n : IceFlow μ} (wf : WellFormed n) {op : Op μ} {edge : String}
    (other : op.repartitionsConsumer edge = false) :
    (op.perform n).subscriptionsOf edge =
      if op.queriesConsumers then [] else n.subscriptionsOf edge := by
  cases effect_perform wf op with
  | framed frame unknown =>
    have quiet : op.queriesConsumers = false ∨ n.subscriptionsOf edge = [] := by
      cases op with
      | deliver handle item now => exact Or.inl rfl
      | call c =>
        cases c with
        | getConsumerStats now =>
          right
          have same := frame.subscriptions
          have entries := getConsumerStats_entries wf now
          simp only [Op.perform, Call.perform] at same
          rw [same] at entries
          rw [subscriptionsOf, List.filter_eq_nil_iff]
          intro entry member received
          have kept := member
          rw [entries] at kept
          have consumer : entry.2.receiver = .consumer edge := by simpa using received
          have source := List.of_mem_filter kept
          rw [consumer] at source
          simp [Receiver.isConsumer] at source
        | _ => exact Or.inl rfl
    have kept : (op.perform n).subscriptionsOf edge = n.subscriptionsOf edge := by
      rw [subscriptionsOf, frame.subscriptions, subscriptionsOf]
    rcases quiet with quiet | nothing
    · rw [kept, quiet]
      rfl
    · rw [kept, nothing]
      split <;> rfl
  | repartitions e requested consumer added called found returned done =>
    subst called
    have different : edge ≠ e := by
      rintro rfl
      simp [Op.repartitionsConsumer] at other
    simpa [Op.queriesConsumers] using done.subscriptionsOf_other different
  | queries now called =>
    subst called
    change (n.getConsumerStats now).2.subscriptionsOf edge = []
    rw [subscriptionsOf, getConsumerStats_entries wf, List.filter_filter,
      List.filter_eq_nil_iff]
    intro entry _
    cases entry.2.receiver <;> simp [Receiver.isConsumer]

theorem Constructed.unserved {n₀ : IceFlow μ} (constructed : n₀.Constructed) {edge : String}
    {ops : List (Op μ)} (other : ∀ op ∈ ops, op.repartitionsConsumer edge = false) :
    (n₀.run ops).subscriptionsOf edge = [] ∧ (n₀.run ops).invokedItems edge = [] := by
  induction ops using List.reverseRecOn with
  | nil =>
    refine ⟨constructed.subscriptionsOf_eq_nil, ?_⟩
    obtain ⟨dagParser, nodeName, environment, built⟩ := constructed
    change n₀.invokedItems edge = []
    rw [invokedItems, (construct_fresh built).history]
    rfl
  | append_singleton ops op ih =>
    have wf := constructed.run_wellFormed ops
    obtain ⟨subscriptions, items⟩ := ih (fun op member => other op (List.mem_append_left _ member))
    rw [run_concat]
    constructor
    · rw [subscriptionsOf_perform wf (other op (by simp)), subscriptions]
      split <;> rfl
    · rw [invokedItems_perform wf op subscriptions, items]

theorem Constructed.registered {n₀ : IceFlow μ} (constructed : n₀.Constructed) {edge : String}
    (known : edge ∈ n₀.iceflowConsumers) {callback : ConsumerCallback μ} {ops : List (Op μ)}
    {op : Op μ} (member : op ∈ ops) (registers : op.registers = some (edge, callback)) :
    (n₀.run ops).callbackOf edge ≠ none := by
  have listed : callback ∈ ops.filterMap (Op.registersFor edge) :=
    List.mem_filterMap.mpr ⟨op, member, Op.registersFor_eq_some.mpr registers⟩
  rw [constructed.callbackOf_run known, lastRegistered, Ne, List.getLast?_eq_none_iff]
  exact List.ne_nil_of_mem listed

end IceFlow
end Iceflow
