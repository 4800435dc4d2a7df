import Iceflow.Node.Recordings
import Iceflow.WordCount

/-! Acknowledgements in the publication log of a node, over whole runs. Each one is
published by a delivery whose callback returned, right after all outputs of that
callback, and the log acknowledges what the history completes, in the same order. The
callback is the one that was registered last for the edge, and of the times it recorded the
consumer forgets only those that are too old. -/
namespace Iceflow

/-- An element of a list that grew is old, or is in what was appended. -/
theorem split_append {α : Type} {before after old block : List α} {x : α}
    (split : before ++ x :: after = old ++ block) :
    (∃ rest, old = before ++ x :: rest) ∨
      ∃ middle, before = old ++ middle ∧ block = middle ++ x :: after := by
  rcases List.append_eq_append_iff.mp split with ⟨middle, rfl, tail⟩ | ⟨middle, rfl, rfl⟩
  · cases middle with
    | nil => exact Or.inr ⟨[], by simp, tail.symm⟩
    | cons y rest =>
      obtain ⟨rfl, _⟩ := List.cons_eq_cons.mp tail
      exact Or.inl ⟨rest, rfl⟩
  · exact Or.inr ⟨middle, rfl, rfl⟩

section
variable [Platform] {μ : Type}

def Publication.acknowledgedItem (publication : Publication) :
    Option (String × SubscriptionData) :=
  match publication.source with
  | .acknowledged edge item => some (edge, item)
  | .pushed _ => none

def Event.completedItem : Event → Option (String × SubscriptionData)
  | .completed edge item => some (edge, item)
  | _ => none

def Event.recordedEdge : Event → Option String
  | .recorded edge _ => some edge
  | _ => none

theorem Publication.acknowledgedItem_eq_some {publication : Publication} {edge : String}
    {item : SubscriptionData} :
    publication.acknowledgedItem = some (edge, item) ↔
      publication.source = .acknowledged edge item := by
  unfold acknowledgedItem
  cases publication.source <;> simp

namespace IceFlow

/-- The acknowledged items, in the order of the publication log. -/
def acknowledgedItems (n : IceFlow μ) : List (String × SubscriptionData) :=
  n.svsPubSub.publications.filterMap Publication.acknowledgedItem

def completedItems (n : IceFlow μ) : List (String × SubscriptionData) :=
  n.history.filterMap Event.completedItem

def recordedEdges (n : IceFlow μ) : List String := n.history.filterMap Event.recordedEdge

theorem length_recordedTimes (n : IceFlow μ) (edge : String) :
    (n.recordedTimes edge).length = n.recordedEdges.count edge := by
  rw [recordedTimes, recordedEdges]
  induction n.history with
  | nil => rfl
  | cons event rest ih =>
    cases event with
    | recorded e timestamp =>
      by_cases here : e = edge <;> simp [Event.recordedTime, Event.recordedEdge, here, ih]
    | invoked e item | completed e item => exact ih

/-- A delivery reaches the callback that was registered last for the edge. -/
theorem Constructed.reaches_iff {n₀ : IceFlow μ} (constructed : n₀.Constructed)
    (ops : List (Op μ)) {handle : Handle} {item : SubscriptionData} {edge : String}
    {callback : ConsumerCallback μ} :
    (n₀.run ops).Reaches handle item edge callback ↔
      (n₀.run ops).hits edge handle item = true ∧ edge ∈ n₀.iceflowConsumers ∧
        lastRegistered edge ops = some callback := by
  constructor
  · intro reaches
    have held := reaches.callbackOf
    have known : edge ∈ n₀.iceflowConsumers := by
      rw [← constructed.mem_consumers_run ops]
      exact known_of_callbackOf (by simp [held])
    rw [constructed.callbackOf_run known] at held
    exact ⟨hits_iff.mpr reaches.subscribed, known, held⟩
  · rintro ⟨hit, known, last⟩
    rw [← constructed.callbackOf_run known] at last
    obtain ⟨consumer, found, registered⟩ := Option.bind_eq_some_iff.mp last
    exact ⟨hits_iff.mp hit, consumer, found, registered⟩

/-- The log acknowledges what was completed, and every completion was recorded. -/
structure Balanced (n : IceFlow μ) : Prop where
  acknowledged : n.acknowledgedItems = n.completedItems
  recorded : n.recordedEdges = n.completedItems.map Prod.fst

theorem source_of_output {n : IceFlow μ} {requests : List (String × Bytes)}
    {outputs : List Publication} (published : List.Forall₂ n.Output requests outputs) :
    ∀ publication ∈ outputs, ∃ edge, publication.source = .pushed edge := by
  induction published with
  | nil => simp
  | cons output _ ih =>
    intro publication member
    rcases List.mem_cons.mp member with rfl | rest
    · exact ⟨_, output.2.2⟩
    · exact ih publication rest

theorem acknowledgedItem_of_pushed {outputs : List Publication}
    (pushed : ∀ publication ∈ outputs, ∃ edge, publication.source = .pushed edge) :
    outputs.filterMap Publication.acknowledgedItem = [] := by
  rw [List.filterMap_eq_nil_iff]
  intro publication member
  obtain ⟨edge, source⟩ := pushed publication member
  rw [Publication.acknowledgedItem, source]

theorem Appends.items {n : IceFlow μ} {op : Op μ} (appends : Appends n op) :
    ∃ items, (op.perform n).acknowledgedItems = n.acknowledgedItems ++ items ∧
      (op.perform n).completedItems = n.completedItems ++ items ∧
      (op.perform n).recordedEdges = n.recordedEdges ++ items.map Prod.fst := by
  cases appends with
  | pushes outputs publications pushed history =>
    refine ⟨[], ?_, ?_, ?_⟩
    · rw [acknowledgedItems, publications, List.filterMap_append,
        acknowledgedItem_of_pushed pushed]
      rfl
    · rw [completedItems, history, List.append_nil, completedItems]
    · rw [recordedEdges, history, List.map_nil, List.append_nil, recordedEdges]
  | handles handle item now edge consumerCallback outputs acknowledgement events delivery reaches
      handled =>
    subst delivery
    have pushed := acknowledgedItem_of_pushed (source_of_output handled.outputs)
    have acknowledged : ((Op.deliver handle item now).perform n).acknowledgedItems =
        n.acknowledgedItems ++ acknowledgement.filterMap Publication.acknowledgedItem := by
      rw [acknowledgedItems, Op.perform, handled.publications, List.filterMap_append,
        List.filterMap_append, pushed, List.nil_append, acknowledgedItems]
    have completed : ((Op.deliver handle item now).perform n).completedItems =
        n.completedItems ++ events.filterMap Event.completedItem := by
      rw [completedItems, Op.perform, handled.history, List.filterMap_append, completedItems]
    have recorded : ((Op.deliver handle item now).perform n).recordedEdges =
        n.recordedEdges ++ events.filterMap Event.recordedEdge := by
      rw [recordedEdges, Op.perform, handled.history, List.filterMap_append, recordedEdges]
    rw [acknowledged, completed, recorded]
    by_cases completes : n.Completes (consumerCallback n.memory item.data)
    · obtain ⟨_, ⟨publication, rfl, _, _, source⟩, rfl⟩ := handled.completed completes
      refine ⟨[(edge, item)], ?_, rfl, rfl⟩
      rw [List.filterMap_cons_some (Publication.acknowledgedItem_eq_some.mpr source),
        List.filterMap_nil]
    · obtain ⟨_, rfl, rfl⟩ := handled.failed completes
      exact ⟨[], rfl, rfl, rfl⟩

theorem Balanced.perform {n : IceFlow μ} (wf : WellFormed n) (balanced : Balanced n) (op : Op μ) :
    Balanced (op.perform n) := by
  obtain ⟨items, acknowledged, completed, recorded⟩ := (appends_perform wf op).items
  constructor
  · rw [acknowledged, completed, balanced.acknowledged]
  · rw [recorded, completed, balanced.recorded, List.map_append]

theorem Constructed.balanced {n₀ : IceFlow μ} (constructed : n₀.Constructed) : Balanced n₀ := by
  obtain ⟨dagParser, nodeName, environment, built⟩ := constructed
  have fresh := construct_fresh built
  constructor <;>
    simp [acknowledgedItems, completedItems, recordedEdges, fresh.publications, fresh.history]

theorem Constructed.run_balanced {n₀ : IceFlow μ} (constructed : n₀.Constructed)
    (ops : List (Op μ)) : Balanced (n₀.run ops) := by
  apply constructed.run_invariant (P := Balanced)
  · intro n op wf balanced
    exact balanced.perform wf op
  · exact constructed.balanced

/-- A delivery whose callback returned published this acknowledgement, and before it,
since the delivery began, exactly the outputs that the callback asked for. -/
structure AcknowledgedBy (n : IceFlow μ) (handle : Handle) (item : SubscriptionData)
    (edge : String) (before : List Publication) (acknowledgement : Publication) : Prop where
  delivered : ∃ consumerCallback outputs, n.Reaches handle item edge consumerCallback ∧
    n.Completes (consumerCallback n.memory item.data) ∧
    List.Forall₂ n.Output (consumerCallback n.memory item.data).requests outputs ∧
    before = n.svsPubSub.publications ++ outputs
  acknowledgement : n.Acknowledgement edge item acknowledgement

theorem acknowledged_by {n₀ : IceFlow μ} (constructed : n₀.Constructed) (ops : List (Op μ))
    {before after : List Publication} {acknowledgement : Publication} {edge : String}
    {item : SubscriptionData}
    (split : (n₀.run ops).svsPubSub.publications = before ++ acknowledgement :: after)
    (source : acknowledgement.source = .acknowledged edge item) :
    ∃ first handle now rest, ops = first ++ .deliver handle item now :: rest ∧
      AcknowledgedBy (n₀.run first) handle item edge before acknowledgement := by
  induction ops using List.reverseRecOn generalizing after with
  | nil =>
    obtain ⟨dagParser, nodeName, environment, built⟩ := constructed
    have empty := (construct_fresh built).publications
    simp only [IceFlow.run, Transition.run_nil, empty] at split
    simp at split
  | append_singleton ops op ih =>
    have wf := constructed.run_wellFormed ops
    rw [run_concat] at split
    have earlier {rest : List Publication}
        (old : (n₀.run ops).svsPubSub.publications = before ++ acknowledgement :: rest) :
        ∃ first handle now rest, ops ++ [op] = first ++ .deliver handle item now :: rest ∧
          AcknowledgedBy (n₀.run first) handle item edge before acknowledgement := by
      obtain ⟨first, handle, now, rest, rfl, by_delivery⟩ := ih old
      exact ⟨first, handle, now, rest ++ [op], by simp, by_delivery⟩
    have not_pushed {outputs : List Publication}
        (pushed : ∀ publication ∈ outputs, ∃ e, publication.source = .pushed e)
        (member : acknowledgement ∈ outputs) : False := by
      obtain ⟨e, other⟩ := pushed _ member
      rw [source] at other
      contradiction
    cases appends_perform wf op with
    | pushes outputs publications pushed history =>
      rw [publications] at split
      rcases split_append split.symm with ⟨rest, old⟩ | ⟨middle, rfl, block⟩
      · exact earlier old
      · exact (not_pushed pushed (by simp [block])).elim
    | handles handle delivered now e consumerCallback outputs acks events delivery reaches
        handled =>
      subst delivery
      rw [Op.perform, handled.publications] at split
      rcases split_append split.symm with ⟨rest, old⟩ | ⟨middle, rfl, block⟩
      · exact earlier old
      · have pushed := source_of_output handled.outputs
        rcases split_append block.symm with ⟨rest, inside⟩ | ⟨between, rfl, tail⟩
        · exact (not_pushed pushed (by simp [inside])).elim
        · by_cases completes : (n₀.run ops).Completes
              (consumerCallback (n₀.run ops).memory delivered.data)
          · obtain ⟨_, ⟨publication, rfl, acknowledges⟩, _⟩ := handled.completed completes
            have only : between = [] ∧ acknowledgement = publication := by
              cases between with
              | nil => exact ⟨rfl, (List.cons_eq_cons.mp tail).1.symm⟩
              | cons y others => simp at tail
            obtain ⟨rfl, rfl⟩ := only
            rw [acknowledges.2.2] at source
            cases source
            have outputs_eq := handled.outputs
            rw [servedRequests_eq completes] at outputs_eq
            exact ⟨ops, handle, now, [], rfl, ⟨consumerCallback, outputs, reaches, completes,
              outputs_eq, by rw [List.append_nil]⟩, acknowledges⟩
          · obtain ⟨_, rfl, _⟩ := handled.failed completes
            simp at tail

/-- What holds of every run of a node. -/
structure AcknowledgesAfterOutputs (n₀ : IceFlow μ) (ops : List (Op μ)) : Prop where
  registered : ∀ first rest, ops = first ++ rest → ∀ handle item edge consumerCallback,
    (n₀.run first).Reaches handle item edge consumerCallback ↔
      (n₀.run first).hits edge handle item = true ∧ edge ∈ n₀.iceflowConsumers ∧
        lastRegistered edge first = some consumerCallback
  handled : ∀ first handle item now rest, ops = first ++ .deliver handle item now :: rest →
    ∀ edge consumerCallback, (n₀.run first).Reaches handle item edge consumerCallback →
      ∃ outputs acknowledgement events, Handled (n₀.run first) edge item now
        (consumerCallback (n₀.run first).memory item.data)
        ((n₀.run first).deliver handle item now) outputs acknowledgement events
  unreached : ∀ first handle item now rest, ops = first ++ .deliver handle item now :: rest →
    (∀ edge consumerCallback, ¬ (n₀.run first).Reaches handle item edge consumerCallback) →
      ∀ subscription edge,
        (n₀.run first).svsPubSub.subscriptions.find? handle = some subscription →
          subscription.receiver = .consumer edge →
            (n₀.run first).deliver handle item now = (.ok (), n₀.run first)
  preceded : ∀ before acknowledgement after edge item,
    (n₀.run ops).svsPubSub.publications = before ++ acknowledgement :: after →
      acknowledgement.source = .acknowledged edge item →
        ∃ first handle now rest, ops = first ++ .deliver handle item now :: rest ∧
          AcknowledgedBy (n₀.run first) handle item edge before acknowledgement
  acknowledged : ∀ edge, ((n₀.run ops).acknowledgedItems.map Prod.fst).count edge =
    ((n₀.run ops).completedItems.map Prod.fst).count edge
  recorded : ∀ edge, (n₀.run ops).recordedEdges.count edge =
    ((n₀.run ops).completedItems.map Prod.fst).count edge
  -- The consumer's deque: what was recorded, without entries removed for their age.
  remembered : ∀ edge consumer, (n₀.run ops).iceflowConsumers.lookup edge = some consumer →
    ∃ removed, (n₀.run ops).recordedTimes edge = removed ++ consumer.consumptionTimestamps ∧
      removed.length + consumer.consumptionTimestamps.length =
        ((n₀.run ops).completedItems.map Prod.fst).count edge ∧
      ∀ time ∈ removed, ∃ reference ∈ (n₀.run ops).recordedTimes edge,
        consumer.maxConsumptionAge < time - reference

theorem acknowledges_after_outputs {n₀ : IceFlow μ} (constructed : n₀.Constructed)
    (ops : List (Op μ)) : AcknowledgesAfterOutputs n₀ ops := by
  have balanced := constructed.run_balanced ops
  constructor
  case registered =>
    intro first rest _ handle item edge consumerCallback
    exact constructed.reaches_iff first
  case handled =>
    intro first handle item now rest _ edge consumerCallback reaches
    exact reaches.handled (constructed.run_wellFormed first) now
  case unreached =>
    intro first handle item now rest _ unreached subscription edge found receiver
    obtain ⟨dataStore, unchanged, same⟩ := deliver_unreached unreached now
    rw [unchanged, same subscription edge found receiver]
  case preceded =>
    intro before acknowledgement after edge item split source
    exact acknowledged_by constructed ops split source
  case acknowledged =>
    intro edge
    rw [balanced.acknowledged]
  case recorded =>
    intro edge
    rw [balanced.recorded]
  case remembered =>
    intro edge consumer found
    obtain ⟨removed, split, old⟩ := constructed.remembers ops found
    refine ⟨removed, split, ?_, old⟩
    rw [← List.length_append, ← split, length_recordedTimes, balanced.recorded]

end IceFlow
end

section
open scoped Iceflow.Reference
open IceFlow WordCount

/-- Two words pushed for a line, under an edge that exists and one that does not. -/
def splitLine (second : String) : ProsumerCallback Unit :=
  fun memory data push => push "l2w" data memory (push second data memory (.done memory))

def line : SubscriptionData :=
  ⟨Reference.components ["WordCount", "t2l"] ++ [Platform.fromNumber 0],
    Reference.components ["node-WordCount", "2"], 1, [104, 105]⟩

def splitting : List (Op Unit) :=
  [.call (.registerProsumerCallback "t2l" (splitLine "l2w")),
    .call (.repartitionConsumer "t2l" [0]), .deliver (Reference.handle 2) line 0,
    .call (.registerProsumerCallback "t2l" (splitLine "unknown")),
    .deliver (Reference.handle 2) line 0]

theorem acknowledges_after_outputs_splitting :
    AcknowledgesAfterOutputs (instanceOf dag "lines2words" "1" rfl) splitting :=
  acknowledges_after_outputs (constructed_instanceOf dag "lines2words" "1" rfl) splitting

end
end Iceflow
