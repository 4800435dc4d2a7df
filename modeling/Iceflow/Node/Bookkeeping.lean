import Iceflow.Node.Serving
import Iceflow.WordCount

/-! The handles that consumers hold, over any run without statistics queries of
consumers: they are those of their live subscriptions, one for each element of the list
that they were last repartitioned to with success. A repartition succeeds if
`repartition` returns `true`. -/
namespace Iceflow
open Registration

section
variable [Platform] {μ : Type}

/-- What a call returns or throws; queries return. -/
def Call.result (n : IceFlow μ) : Call μ → Except Exception Unit
  | .repartitionConsumer edge partitions => (n.repartitionConsumer edge partitions).1
  | .repartitionProducer edge count => (n.repartitionProducer edge count).1
  | .pushData edge payload => (n.pushData edge payload).1
  | .registerConsumerCallback edge callback => (n.registerConsumerCallback edge callback).1
  | .registerProsumerCallback edge callback => (n.registerProsumerCallback edge callback).1
  | .getConsumerStats _ | .getProducerStats _ => .ok ()

def Op.result (n : IceFlow μ) : Op μ → Except Exception Unit
  | .call c => c.result n
  | .deliver handle subData now => (n.deliver handle subData now).1

namespace IceFlow

/-- The list that an operation repartitions the consumer of an edge to with success. -/
def repartitions (n : IceFlow μ) (edge : String) : Op μ → Option (List UInt32)
  | .call (.repartitionConsumer e partitions) =>
    match n.iceflowConsumers.lookup e with
    | some consumer =>
      if e = edge ∧ (consumer.repartition n.svsPubSub partitions).1 = .ok true then
        some partitions
      else none
    | none => none
  | _ => none

def lastSuccessful (n₀ : IceFlow μ) (edge : String) (ops : List (Op μ)) : List UInt32 :=
  (Transition.steps Op.perform n₀ ops).foldl
    (fun last step => (step.1.repartitions edge step.2).getD last) []

theorem lastSuccessful_concat (n₀ : IceFlow μ) (edge : String) (ops : List (Op μ)) (op : Op μ) :
    n₀.lastSuccessful edge (ops ++ [op]) =
      ((n₀.run ops).repartitions edge op).getD (n₀.lastSuccessful edge ops) := by
  rw [lastSuccessful, Transition.steps_append, List.foldl_append]
  rfl

/-- The consumer holds the handles of its live subscriptions, which are those of a list
of partitions, one for each element. -/
structure Holding (n : IceFlow μ) (edge : String) (partitions : List UInt32) : Prop where
  handles : (n.subscriptionsOf edge).map Prod.fst = n.handles edge
  partitions : List.Forall₂
    (fun partition entry => partitionName (n.topicOf edge) partition = .ok entry.2.topic)
    partitions (n.subscriptionsOf edge)

theorem Frame.handles {n n' : IceFlow μ} (frame : Frame n n') (edge : String) :
    n'.handles edge = n.handles edge := handles_of_identity (frame.consumers edge)

theorem Frame.holding {n n' : IceFlow μ} (frame : Frame n n') {edge : String}
    {partitions : List UInt32} (holding : n.Holding edge partitions) :
    n'.Holding edge partitions := by
  have subscriptions : n'.subscriptionsOf edge = n.subscriptionsOf edge := by
    rw [subscriptionsOf, frame.subscriptions, subscriptionsOf]
  constructor
  · rw [subscriptions, frame.handles, holding.handles]
  · rw [subscriptions, frame.topicOf]
    exact holding.partitions

/-- Whether a repartition succeeds depends on the topic of the edge alone. -/
theorem repartition_result {n : IceFlow μ} (wf : WellFormed n) {edge : String}
    {consumer : IceflowConsumer μ} (found : n.iceflowConsumers.lookup edge = some consumer)
    (partitions : List UInt32) :
    (consumer.repartition n.svsPubSub partitions).1 =
      .ok (partitions = [] ∨ (Platform.nameOfUri (n.topicOf edge)).isSome) := by
  obtain ⟨topic_eq, _⟩ := wf.consumer_fixed edge consumer found
  simp only [IceflowConsumer.repartition,
    IceflowConsumer.unsubscribeFromAllPartitions_live consumer wf.live]
  cases parsed : Platform.nameOfUri (n.topicOf edge) with
  | some topic =>
    obtain ⟨consumer', svs', added, runs, _⟩ :=
      IceflowConsumer.subscribeToPartitions_parsed { consumer with subscriptionHandles := [] }
        { n.svsPubSub with subscriptions :=
          n.svsPubSub.subscriptions.unregisterAll consumer.subscriptionHandles }
        wf.live (by rw [topic_eq, parsed]) partitions
    rw [runs]
    simp
  | none =>
    rw [IceflowConsumer.subscribeToPartitions_unparsed { consumer with subscriptionHandles := [] }
      { n.svsPubSub with subscriptions :=
        n.svsPubSub.subscriptions.unregisterAll consumer.subscriptionHandles }
      wf.live (by rw [topic_eq, parsed]) partitions]
    by_cases empty : partitions = [] <;> simp [empty, Exception.isRuntimeError]

theorem repartitions_known {n : IceFlow μ} (wf : WellFormed n) {e : String}
    {consumer : IceflowConsumer μ} (found : n.iceflowConsumers.lookup e = some consumer)
    (partitions : List UInt32) (edge : String) :
    n.repartitions edge (.call (.repartitionConsumer e partitions)) =
      if e = edge ∧ (partitions = [] ∨ (Platform.nameOfUri (n.topicOf e)).isSome) then
        some partitions
      else none := by
  simp only [repartitions, found, repartition_result wf found, Except.ok.injEq, decide_eq_true_eq]

theorem requested_topics {n : IceFlow μ} {edge : String} {topic : Name}
    (parsed : Platform.nameOfUri (n.topicOf edge) = some topic) {partitions : List UInt32}
    {added : List Handle} (length : added.length = (n.requested edge partitions).length) :
    List.Forall₂ (fun partition entry => partitionName (n.topicOf edge) partition =
      .ok (Prod.snd entry).topic) partitions (added.zip (n.requested edge partitions)) := by
  simp only [requested, parsed] at length ⊢
  induction partitions generalizing added with
  | nil => simp
  | cons partition rest ih =>
    cases added with
    | nil => simp at length
    | cons handle added =>
      refine .cons ?_ (ih (by simpa using length))
      rw [partitionName_parsed parsed]
      rfl

theorem Holding.nil_of_unparsed {n : IceFlow μ} {edge : String} {partitions : List UInt32}
    (holding : n.Holding edge partitions)
    (unparsed : Platform.nameOfUri (n.topicOf edge) = none) : partitions = [] := by
  have named := holding.partitions
  cases partitions with
  | nil => rfl
  | cons partition rest =>
    obtain ⟨_, _, first, _, _⟩ := List.forall₂_cons_left_iff.mp named
    obtain ⟨topic, parsed, -⟩ := partitionName_ok.mp first
    rw [unparsed] at parsed
    contradiction

theorem Holding.repartitioned {n n' : IceFlow μ} (wf : WellFormed n) {edge e : String}
    {last partitions : List UInt32} (holding : n.Holding edge last) {consumer : IceflowConsumer μ}
    (found : n.iceflowConsumers.lookup e = some consumer) {added : List Handle}
    (done : Repartitioned n e consumer partitions added n') :
    n'.Holding edge
      ((n.repartitions edge (.call (.repartitionConsumer e partitions))).getD last) := by
  rw [repartitions_known wf found]
  by_cases here : e = edge
  · subst here
    have holds (last' : List UInt32) (named : List.Forall₂ (fun partition entry =>
        partitionName (n.topicOf e) partition = .ok (Prod.snd entry).topic) last'
        (added.zip (n.requested e partitions))) : n'.Holding e last' := by
      constructor
      · rw [done.subscriptionsOf_same, done.handles, if_pos rfl, List.map_fst_zip done.length.le]
      · rw [done.subscriptionsOf_same, done.topicOf]
        exact named
    cases parsed : Platform.nameOfUri (n.topicOf e) with
    | some topic =>
      rw [if_pos ⟨rfl, Or.inr rfl⟩]
      exact holds partitions (requested_topics parsed done.length)
    | none =>
      -- Whether it succeeds or not, the lists before and after are empty.
      have before := holding.nil_of_unparsed parsed
      have none_requested : n.requested e partitions = [] := by rw [requested, parsed]
      have holds_nil := holds [] (by rw [none_requested, List.zip_nil_right]; exact .nil)
      by_cases empty : partitions = []
      · rw [if_pos ⟨rfl, Or.inl empty⟩, Option.getD_some, empty]
        exact holds_nil
      · rw [if_neg (by simp [empty]), Option.getD_none, before]
        exact holds_nil
  · rw [if_neg (fun both => here both.1), Option.getD_none]
    constructor
    · rw [done.subscriptionsOf_other (Ne.symm here), done.handles, if_neg (Ne.symm here),
        holding.handles]
    · rw [done.subscriptionsOf_other (Ne.symm here), done.topicOf]
      exact holding.partitions

theorem Holding.perform {n : IceFlow μ} (wf : WellFormed n) {edge : String} {last : List UInt32}
    (holding : n.Holding edge last) {op : Op μ} (quiet : op.queriesConsumers = false) :
    (op.perform n).Holding edge ((n.repartitions edge op).getD last) := by
  cases effect_perform wf op with
  | framed frame unknown =>
    have none : n.repartitions edge op = none := by
      unfold repartitions
      split
      · rename_i e partitions
        rw [unknown e partitions rfl]
      · rfl
    rw [none]
    exact frame.holding holding
  | repartitions e partitions consumer added called found returned done =>
    subst called
    exact holding.repartitioned wf found done
  | queries now called =>
    subst called
    contradiction

theorem Constructed.holding {n₀ : IceFlow μ} (constructed : n₀.Constructed) {ops : List (Op μ)}
    (quiet : ∀ op ∈ ops, op.queriesConsumers = false) (edge : String) :
    (n₀.run ops).Holding edge (n₀.lastSuccessful edge ops) := by
  induction ops using List.reverseRecOn with
  | nil =>
    have none : n₀.subscriptionsOf edge = [] := constructed.subscriptionsOf_eq_nil
    obtain ⟨dagParser, nodeName, environment, built⟩ := constructed
    have fresh := construct_fresh built
    constructor
    · change (n₀.subscriptionsOf edge).map Prod.fst = n₀.handles edge
      rw [none, fresh.handles]
      rfl
    · change List.Forall₂ _ [] (n₀.subscriptionsOf edge)
      rw [none]
      exact .nil
  | append_singleton ops op ih =>
    rw [run_concat, lastSuccessful_concat]
    exact (ih fun earlier member => quiet earlier (List.mem_append_left _ member)).perform
      (constructed.run_wellFormed ops) (quiet op (by simp))

def backchannels (n : IceFlow μ) : List (Handle × Subscription) :=
  n.svsPubSub.subscriptions.entries.filter (fun entry => !entry.2.receiver.isConsumer)

theorem Repartitioned.backchannels {n n' : IceFlow μ} {edge : String}
    {consumer : IceflowConsumer μ} {partitions : List UInt32} {added : List Handle}
    (done : Repartitioned n edge consumer partitions added n') :
    n'.backchannels = n.backchannels := by
  have none_new : (added.zip (n.requested edge partitions)).filter
      (fun entry => !entry.2.receiver.isConsumer) = [] := by
    rw [List.filter_eq_nil_iff]
    intro entry member
    simp [(receiver_of_requested (List.of_mem_zip member).2).1, Receiver.isConsumer]
  rw [IceFlow.backchannels, done.entries, List.filter_append, none_new, List.append_nil,
    List.filter_filter, IceFlow.backchannels]
  apply List.filter_congr
  intro entry _
  cases entry.2.receiver <;> simp [Receiver.isConsumer]

theorem backchannels_perform {n : IceFlow μ} (wf : WellFormed n) (op : Op μ) :
    (op.perform n).backchannels = n.backchannels := by
  cases effect_perform wf op with
  | framed frame _ => rw [backchannels, frame.subscriptions, backchannels]
  | repartitions edge partitions consumer added called found returned done =>
    exact done.backchannels
  | queries now called =>
    subst called
    change (n.getConsumerStats now).2.backchannels = _
    rw [backchannels, getConsumerStats_entries wf, List.filter_filter, backchannels]
    simp

/-- What throws leaves every subscription and every list of handles as it was. -/
theorem unchanged_of_throws {n : IceFlow μ} (wf : WellFormed n) {op : Op μ} {e : Exception}
    (throws : op.result n = .error e) :
    (op.perform n).svsPubSub.subscriptions = n.svsPubSub.subscriptions ∧
      ∀ edge, (op.perform n).handles edge = n.handles edge := by
  cases effect_perform wf op with
  | framed frame _ => exact ⟨frame.subscriptions, frame.handles⟩
  | repartitions edge partitions consumer added called found returned done =>
    subst called
    cases returned.symm.trans throws
  | queries now called =>
    subst called
    cases throws

/-- The bookkeeping of subscriptions in the state that a run reaches. -/
structure Bookkept (n₀ : IceFlow μ) (ops : List (Op μ)) : Prop where
  /-- Handles and subscriptions of each consumer, one for each element of its list. -/
  holding : ∀ edge, (n₀.run ops).Holding edge (n₀.lastSuccessful edge ops)
  nodup : ∀ edge, ((n₀.run ops).handles edge).Nodup
  disjoint : ∀ e e', e ≠ e' → ((n₀.run ops).handles e).Disjoint ((n₀.run ops).handles e')
  backchannels : (n₀.run ops).backchannels = n₀.svsPubSub.subscriptions.entries
  throws : ∀ first op rest e, ops = first ++ op :: rest → op.result (n₀.run first) = .error e →
    (n₀.run (first ++ [op])).svsPubSub.subscriptions = (n₀.run first).svsPubSub.subscriptions ∧
      ∀ edge, (n₀.run (first ++ [op])).handles edge = (n₀.run first).handles edge

theorem Constructed.bookkept {n₀ : IceFlow μ} (constructed : n₀.Constructed) {ops : List (Op μ)}
    (quiet : ∀ op ∈ ops, op.queriesConsumers = false) : Bookkept n₀ ops := by
  have holding := constructed.holding quiet
  have entry_of_handle {edge : String} {h : Handle} (held : h ∈ (n₀.run ops).handles edge) :
      ∃ subscription, (h, subscription) ∈ (n₀.run ops).svsPubSub.subscriptions.entries ∧
        subscription.receiver = .consumer edge := by
    rw [← (holding edge).handles, List.mem_map] at held
    obtain ⟨⟨_, subscription⟩, member, rfl⟩ := held
    obtain ⟨present, receiver⟩ := List.mem_filter.mp member
    exact ⟨subscription, present, by simpa using receiver⟩
  constructor
  case holding => exact holding
  case nodup =>
    intro edge
    rw [← (holding edge).handles]
    exact (n₀.run ops).svsPubSub.subscriptions.handles_nodup.sublist (List.filter_sublist.map _)
  case disjoint =>
    intro e e' different h held held'
    obtain ⟨subscription, present, receiver⟩ := entry_of_handle held
    obtain ⟨subscription', present', receiver'⟩ := entry_of_handle held'
    rw [Registry.entry_unique present present', receiver'] at receiver
    exact different (by simpa using receiver.symm)
  case backchannels =>
    have initial : n₀.backchannels = n₀.svsPubSub.subscriptions.entries := by
      obtain ⟨dagParser, nodeName, environment, built⟩ := constructed
      rw [IceFlow.backchannels, List.filter_eq_self]
      intro entry member
      rw [(construct_fresh built).backchannels entry member]
      rfl
    apply constructed.run_invariant (P := fun n => n.backchannels = _)
    · intro n op wf same
      rw [backchannels_perform wf op, same]
    · exact initial
  case throws =>
    intro first op rest e split threw
    rw [run_concat]
    exact unchanged_of_throws (constructed.run_wellFormed first) threw

end IceFlow
end

section
open scoped Iceflow.Reference
open IceFlow WordCount

/-- A repeated element, then another list, and a call for an edge without a consumer. -/
def repartitioning : List (Op Unit) :=
  [.call (.repartitionConsumer "t2l" [0, 0, 2]), .call (.repartitionConsumer "l2w" [1]),
    .call (.repartitionConsumer "t2l" [1])]

theorem bookkept_repartitioning : Bookkept firstSplitter repartitioning :=
  constructed_firstSplitter.bookkept (by decide)

end
end Iceflow
