import Iceflow.Node.Acknowledgements
import Iceflow.Node.Items
import Iceflow.Node.Store
import Iceflow.WordCount

/-! Nodes that exchange their publications. A publication can be handed to any live
subscription of another node at any time after it was published, in any order and
any number of times. A backchannel handler erases by sequence number alone, so what
it erases was consumed if what it receives acknowledges an item of its own node. -/
namespace Iceflow

section
variable [Platform] {μ : Type} {ι : Type}

/-- A call at a node, or the hand-over of the publication at an index of a log. -/
inductive Action (ι μ : Type) [Platform] where
  | call (node : ι) (c : Call μ)
  | deliver (receiver : ι) (handle : Handle) (sender : ι) (index : Nat) (now : Int)

namespace IceFlow

def Pushes (n : IceFlow μ) (seqNo : UInt64) : Prop :=
  ∃ index publication edge, n.svsPubSub.publications[index]? = some publication ∧
    publication.source = .pushed edge ∧ UInt64.ofNat (index + 1) = seqNo

theorem svsNodePrefix_perform {n : IceFlow μ} (wf : WellFormed n) (op : Op μ) :
    (op.perform n).svsPubSub.nodePrefix = n.svsPubSub.nodePrefix := by
  cases framed : op.framed with
  | true => exact (Op.frame n framed).svsNodePrefix
  | false =>
    obtain ⟨subscriptions, consumers, performed, _⟩ := perform_unframed wf framed
    rw [performed]

theorem subscriptionData_perform {n : IceFlow μ} (wf : WellFormed n) (op : Op μ) {index : Nat}
    {item : SubscriptionData} (published : n.svsPubSub.subscriptionData index = some item) :
    (op.perform n).svsPubSub.subscriptionData index = some item := by
  obtain ⟨publication, found, same⟩ := Option.map_eq_some_iff.mp published
  have inside : index < n.svsPubSub.publications.length := (List.getElem?_eq_some_iff.mp found).1
  obtain ⟨later, grown⟩ := publications_prefix_perform wf op
  rw [SVSPubSub.subscriptionData, ← grown, List.getElem?_append_left inside, found,
    svsNodePrefix_perform wf op, Option.map_some, same]

/-- A completed item was completed before, or is the one that was delivered. -/
theorem completedItems_perform {n : IceFlow μ} (wf : WellFormed n) {op : Op μ}
    {x : String × SubscriptionData} (completed : x ∈ (op.perform n).completedItems) :
    x ∈ n.completedItems ∨ ∃ handle now, op = .deliver handle x.2 now := by
  cases appends_perform wf op with
  | pushes outputs publications pushed history =>
    rw [completedItems, history] at completed
    exact Or.inl completed
  | handles handle item now edge consumerCallback outputs acks events delivery reaches handled =>
    subst delivery
    rw [completedItems, Op.perform, handled.history, List.filterMap_append] at completed
    rcases List.mem_append.mp completed with old | new
    · exact Or.inl old
    · refine Or.inr ⟨handle, now, ?_⟩
      by_cases completes : n.Completes (consumerCallback n.memory item.data)
      · obtain ⟨_, _, rfl⟩ := handled.completed completes
        have same : (edge, item) = x := by simpa [Event.completedItem] using new
        rw [← same]
      · obtain ⟨_, _, rfl⟩ := handled.failed completes
        simp [Event.completedItem] at new

theorem completedItems_kept {n : IceFlow μ} (wf : WellFormed n) (op : Op μ)
    {x : String × SubscriptionData} (completed : x ∈ n.completedItems) :
    x ∈ (op.perform n).completedItems := by
  obtain ⟨items, _, grown, _⟩ := (appends_perform wf op).items
  rw [grown]
  exact List.mem_append_left _ completed

/-- In reachable states an acknowledgement carries the number of its item, which was
completed before. -/
theorem Constructed.acknowledgement {n₀ : IceFlow μ} (constructed : n₀.Constructed)
    (ops : List (Op μ)) {publication : Publication} {edge : String} {item : SubscriptionData}
    (published : publication ∈ (n₀.run ops).svsPubSub.publications)
    (source : publication.source = .acknowledged edge item) :
    carriedSeqNo publication.data = some item.seqNo ∧
      (edge, item) ∈ (n₀.run ops).completedItems := by
  obtain ⟨before, after, split⟩ := List.append_of_mem published
  obtain ⟨first, handle, now, rest, _, acknowledged⟩ := acknowledged_by constructed ops split source
  constructor
  · rw [acknowledged.acknowledgement.2.1, carriedSeqNo_dumpUnsigned]
  · rw [← (constructed.run_balanced ops).acknowledged]
    exact List.mem_filterMap.mpr
      ⟨publication, published, Publication.acknowledgedItem_eq_some.mpr source⟩

end IceFlow

namespace Network
open IceFlow

/-- Some consumer completed its callback for the item that a node published under
this sequence number. -/
def Consumed (nodes : ι → IceFlow μ) (producer : ι) (seqNo : UInt64) : Prop :=
  ∃ consumer edge index item, (edge, item) ∈ (nodes consumer).completedItems ∧
    (nodes producer).svsPubSub.subscriptionData index = some item ∧ item.seqNo = seqNo

/-- What a backchannel of a node receives acknowledges an item of that node, or the
node stores no item under the number that it carries. -/
def Owned (nodes : ι → IceFlow μ) : Action ι μ → Prop
  | .call _ _ => True
  | .deliver receiver handle sender index _ => receiver ≠ sender →
    ∀ publication, (nodes sender).svsPubSub.publications[index]? = some publication →
      (nodes receiver).ToBackchannel handle publication.name →
        (∃ edge item, publication.source = .acknowledged edge item ∧
          item.producerPrefix = (nodes receiver).svsPubSub.nodePrefix) ∨
        ∀ seqNo, carriedSeqNo publication.data = some seqNo →
          (nodes receiver).Pushes seqNo → ¬ (nodes receiver).svsPubSub.Stores seqNo

/-- Every item is still stored by its producer, or was consumed. -/
def NothingLost (nodes : ι → IceFlow μ) : Prop :=
  ∀ producer seqNo, (nodes producer).Pushes seqNo →
    (nodes producer).svsPubSub.Stores seqNo ∨ Consumed nodes producer seqNo

/-- Reached by the nodes together: every node by its own operations, with its own
prefix, and what was completed is a publication of some node. -/
structure Reached (nodes : ι → IceFlow μ) : Prop where
  constructed : ∀ i, ∃ (n₀ : IceFlow μ) (ops : List (Op μ)),
    n₀.Constructed ∧ nodes i = n₀.run ops
  distinct : Function.Injective (fun i => (nodes i).svsPubSub.nodePrefix)
  published : ∀ i x, x ∈ (nodes i).completedItems → ∃ sender index,
    (nodes sender).svsPubSub.subscriptionData index = some x.2

namespace Reached
variable {nodes : ι → IceFlow μ}

theorem wellFormed (reached : Reached nodes) (i : ι) : WellFormed (nodes i) := by
  obtain ⟨n₀, ops, constructed, same⟩ := reached.constructed i
  rw [same]
  exact constructed.run_wellFormed ops

theorem initial {start : ι → IceFlow μ} (constructed : ∀ i, (start i).Constructed)
    (distinct : Function.Injective (fun i => (start i).svsPubSub.nodePrefix)) : Reached start := by
  refine ⟨fun i => ⟨start i, [], constructed i, rfl⟩, distinct, ?_⟩
  intro i x completed
  obtain ⟨dagParser, nodeName, environment, built⟩ := constructed i
  simp [completedItems, (construct_fresh built).history] at completed

theorem consumed_of_acknowledged (reached : Reached nodes) {producer sender : ι}
    {publication : Publication} (published : publication ∈ (nodes sender).svsPubSub.publications)
    {edge : String} {item : SubscriptionData}
    (source : publication.source = .acknowledged edge item)
    (own : item.producerPrefix = (nodes producer).svsPubSub.nodePrefix) :
    carriedSeqNo publication.data = some item.seqNo ∧ Consumed nodes producer item.seqNo := by
  obtain ⟨n₀, ops, constructed, same⟩ := reached.constructed sender
  rw [same] at published
  obtain ⟨carried, completed⟩ := constructed.acknowledgement ops published source
  rw [← same] at completed
  obtain ⟨publisher, index, found⟩ := reached.published sender (edge, item) completed
  obtain ⟨_, _, data⟩ := Option.map_eq_some_iff.mp found
  have prefixes : (nodes publisher).svsPubSub.nodePrefix =
      (nodes producer).svsPubSub.nodePrefix := by
    rw [← own]
    exact congrArg SubscriptionData.producerPrefix data
  obtain rfl := reached.distinct prefixes
  exact ⟨carried, sender, edge, index, item, completed, found, rfl⟩

end Reached

variable [DecidableEq ι]

/-- What an action does to a node: nothing is handed to the node that published it,
or before it is published. -/
def operation (nodes : ι → IceFlow μ) : Action ι μ → Option (ι × Op μ)
  | .call node c => some (node, .call c)
  | .deliver receiver handle sender index now =>
    if receiver = sender then none
    else ((nodes sender).svsPubSub.subscriptionData index).map
      (fun item => (receiver, .deliver handle item now))

def step (nodes : ι → IceFlow μ) (action : Action ι μ) : ι → IceFlow μ :=
  match operation nodes action with
  | some (node, op) => Function.update nodes node (op.perform (nodes node))
  | none => nodes

abbrev run (start : ι → IceFlow μ) (actions : List (Action ι μ)) : ι → IceFlow μ :=
  Transition.run step start actions

theorem step_node (nodes : ι → IceFlow μ) (action : Action ι μ) (i : ι) :
    step nodes action i = nodes i ∨
      ∃ op, operation nodes action = some (i, op) ∧ step nodes action i = op.perform (nodes i) := by
  unfold step
  cases operated : operation nodes action with
  | none => exact Or.inl rfl
  | some target =>
    obtain ⟨node, op⟩ := target
    by_cases here : i = node
    · subst here
      exact Or.inr ⟨op, rfl, Function.update_self _ _ _⟩
    · exact Or.inl (Function.update_of_ne here _ _)

theorem operation_deliver {nodes : ι → IceFlow μ} {action : Action ι μ} {i : ι} {handle : Handle}
    {item : SubscriptionData} {now : Int}
    (operated : operation nodes action = some (i, .deliver handle item now)) :
    ∃ sender index, action = .deliver i handle sender index now ∧ i ≠ sender ∧
      (nodes sender).svsPubSub.subscriptionData index = some item := by
  cases action with
  | call node c => simp [operation] at operated
  | deliver receiver h sender index time =>
    simp only [operation] at operated
    split at operated
    · contradiction
    · rename_i different
      obtain ⟨delivered, published, same⟩ := Option.map_eq_some_iff.mp operated
      simp only [Prod.mk.injEq, Op.deliver.injEq] at same
      obtain ⟨rfl, rfl, rfl, rfl⟩ := same
      exact ⟨sender, index, rfl, different, published⟩

namespace Reached
variable {nodes : ι → IceFlow μ}

theorem subscriptionData_step (reached : Reached nodes) (action : Action ι μ) {i : ι} {index : Nat}
    {item : SubscriptionData} (found : (nodes i).svsPubSub.subscriptionData index = some item) :
    (step nodes action i).svsPubSub.subscriptionData index = some item := by
  rcases step_node nodes action i with same | ⟨op, _, performed⟩
  · rw [same, found]
  · rw [performed]
    exact subscriptionData_perform (reached.wellFormed i) op found

theorem consumed_step (reached : Reached nodes) (action : Action ι μ) {producer : ι}
    {seqNo : UInt64} (consumed : Consumed nodes producer seqNo) :
    Consumed (step nodes action) producer seqNo := by
  obtain ⟨consumer, edge, index, item, completed, found, number⟩ := consumed
  refine ⟨consumer, edge, index, item, ?_, reached.subscriptionData_step action found, number⟩
  rcases step_node nodes action consumer with same | ⟨op, _, performed⟩
  · rw [same]
    exact completed
  · rw [performed]
    exact completedItems_kept (reached.wellFormed consumer) op completed

theorem step (reached : Reached nodes) (action : Action ι μ) :
    Reached (Network.step nodes action) := by
  constructor
  case constructed =>
    intro i
    obtain ⟨n₀, ops, constructed, same⟩ := reached.constructed i
    rcases step_node nodes action i with unchanged | ⟨op, _, performed⟩
    · exact ⟨n₀, ops, constructed, unchanged.trans same⟩
    · refine ⟨n₀, ops ++ [op], constructed, ?_⟩
      rw [performed, same, run_concat]
  case distinct =>
    have same (i : ι) : (Network.step nodes action i).svsPubSub.nodePrefix =
        (nodes i).svsPubSub.nodePrefix := by
      rcases step_node nodes action i with unchanged | ⟨op, _, performed⟩
      · rw [unchanged]
      · rw [performed, svsNodePrefix_perform (reached.wellFormed i) op]
    simpa only [same] using reached.distinct
  case published =>
    intro i x completed
    have old : x ∈ (nodes i).completedItems → ∃ sender index,
        (Network.step nodes action sender).svsPubSub.subscriptionData index = some x.2 := by
      intro before
      obtain ⟨sender, index, found⟩ := reached.published i x before
      exact ⟨sender, index, reached.subscriptionData_step action found⟩
    rcases step_node nodes action i with unchanged | ⟨op, operated, performed⟩
    · rw [unchanged] at completed
      exact old completed
    · rw [performed] at completed
      rcases completedItems_perform (reached.wellFormed i) completed with
        before | ⟨handle, now, rfl⟩
      · exact old before
      · obtain ⟨sender, index, _, _, found⟩ := operation_deliver operated
        exact ⟨sender, index, reached.subscriptionData_step action found⟩

end Reached

/-- If an action erases an item from the store of its producer, some consumer had
completed its callback for that item before. -/
def SafeStep (nodes : ι → IceFlow μ) (action : Action ι μ) : Prop :=
  ∀ producer seqNo, (nodes producer).Pushes seqNo → (nodes producer).svsPubSub.Stores seqNo →
    ¬ (step nodes action producer).svsPubSub.Stores seqNo → Consumed nodes producer seqNo

theorem safe_of_owned {nodes : ι → IceFlow μ} (reached : Reached nodes) {action : Action ι μ}
    (owned : Owned nodes action) : SafeStep nodes action := by
  intro producer seqNo pushed stored lost
  have wf := reached.wellFormed producer
  rcases step_node nodes action producer with same | ⟨op, operated, performed⟩
  · rw [same] at lost
    contradiction
  · rw [performed] at lost
    by_cases handed : ∃ handle item now, op = .deliver handle item now ∧
        (nodes producer).ToBackchannel handle item.name
    · obtain ⟨handle, item, now, rfl, handed⟩ := handed
      obtain ⟨sender, index, rfl, different, found⟩ := operation_deliver operated
      obtain ⟨publication, published, rfl⟩ := Option.map_eq_some_iff.mp found
      obtain ⟨_, stores⟩ := deliver_backchannel wf handed now
      have carried : carriedSeqNo publication.data = some seqNo := by
        by_contra other
        exact lost ((stores seqNo).mpr ⟨stored, other⟩)
      rcases owned different publication published handed with ⟨edge, item, source, own⟩ | empty
      · obtain ⟨number, consumed⟩ :=
          reached.consumed_of_acknowledged (List.mem_of_getElem? published) source own
        rw [carried, Option.some.injEq] at number
        rw [number]
        exact consumed
      · exact absurd stored (empty seqNo carried pushed)
    · have kept := (extends_perform wf op
        (fun handle item now same received => handed ⟨handle, item, now, same, received⟩)).kept
      exact absurd (kept seqNo stored) lost

/-- An item is old, or is stored by the step that pushed it. -/
theorem pushes_step {nodes : ι → IceFlow μ} (reached : Reached nodes) (action : Action ι μ)
    {producer : ι} {seqNo : UInt64} (pushes : (step nodes action producer).Pushes seqNo) :
    (nodes producer).Pushes seqNo ∨ (step nodes action producer).svsPubSub.Stores seqNo := by
  have wf := reached.wellFormed producer
  obtain ⟨index, publication, edge, published, source, number⟩ := pushes
  rcases step_node nodes action producer with same | ⟨op, _, performed⟩
  · rw [same] at published
    exact Or.inl ⟨index, publication, edge, published, source, number⟩
  · rw [performed] at published ⊢
    have inside := (List.getElem?_eq_some_iff.mp published).1
    obtain ⟨later, grown⟩ := publications_prefix_perform wf op
    by_cases old : index < (nodes producer).svsPubSub.publications.length
    · rw [← grown, List.getElem?_append_left old] at published
      exact Or.inl ⟨index, publication, edge, published, source, number⟩
    · by_cases handed : ∃ handle item now, op = .deliver handle item now ∧
          (nodes producer).ToBackchannel handle item.name
      · obtain ⟨handle, item, now, rfl, handed⟩ := handed
        rw [Op.perform, (deliver_backchannel wf handed now).1] at inside
        exact absurd inside old
      · have extended := extends_perform wf op
          (fun handle item now same received => handed ⟨handle, item, now, same, received⟩)
        rw [← number]
        exact Or.inr (extended.stored index (Nat.not_lt.mp old) inside)

theorem NothingLost.step {nodes : ι → IceFlow μ} (reached : Reached nodes)
    (nothingLost : NothingLost nodes) {action : Action ι μ} (safe : SafeStep nodes action) :
    NothingLost (step nodes action) := by
  intro producer seqNo pushes
  rcases pushes_step reached action pushes with old | stored
  · rcases nothingLost producer seqNo old with stored | consumed
    · by_cases kept : (Network.step nodes action producer).svsPubSub.Stores seqNo
      · exact Or.inl kept
      · exact Or.inr (reached.consumed_step action (safe producer seqNo old stored kept))
    · exact Or.inr (reached.consumed_step action consumed)
  · exact Or.inl stored

structure AcknowledgementSafe (start : ι → IceFlow μ) (actions : List (Action ι μ)) : Prop where
  erased : ∀ x ∈ Transition.steps step start actions, SafeStep x.1 x.2
  nothingLost : NothingLost (run start actions)

/-- Runs in which backchannels only receive acknowledgements of their own node's items,
or numbers that their node stores no item under. -/
theorem acknowledgement_safe {start : ι → IceFlow μ} (constructed : ∀ i, (start i).Constructed)
    (distinct : Function.Injective (fun i => (start i).svsPubSub.nodePrefix))
    (actions : List (Action ι μ))
    (owned : ∀ x ∈ Transition.steps step start actions, Owned x.1 x.2) :
    AcknowledgementSafe start actions := by
  have initial : Reached start := .initial constructed distinct
  constructor
  case erased =>
    intro x member
    have reached := Transition.steps_invariant (fun _ action r => r.step action) initial x member
    exact safe_of_owned reached (owned x member)
  case nothingLost =>
    have fresh : NothingLost start := by
      rintro producer seqNo ⟨index, publication, edge, published, _⟩
      obtain ⟨dagParser, nodeName, environment, built⟩ := constructed producer
      simp [(construct_fresh built).publications] at published
    have both : Reached (run start actions) ∧ NothingLost (run start actions) :=
      Transition.run_preserves (P := fun nodes => Reached nodes ∧ NothingLost nodes)
        (fun nodes action inv o =>
          ⟨inv.1.step action, inv.2.step inv.1 (safe_of_owned inv.1 o)⟩)
        ⟨initial, fresh⟩ owned
    exact both.2

end Network
end

namespace Network
section
open scoped Iceflow.Reference
open IceFlow WordCount

/-- Two instances of text2lines, and an instance of lines2words that reads partition 0. -/
def twoSources : Fin 3 → IceFlow Unit
  | 0 => firstSource
  | 1 => secondSource
  | 2 => firstSplitter

/-- Both sources push an item, and the one of the first is consumed. -/
def firstConsumed : List (Action (Fin 3) Unit) :=
  [.call 0 (.pushData "t2l" [104]), .call 1 (.pushData "t2l" [105]),
    .call 2 (.registerConsumerCallback "t2l" (fun memory _ => .done memory)),
    .call 2 (.repartitionConsumer "t2l" [0]), .deliver 2 (Reference.handle 2) 0 0 0]

def acknowledgeTo (source : Fin 3) : Action (Fin 3) Unit :=
  .deliver source (Reference.handle 1) 2 0 0

theorem constructed_twoSources (i : Fin 3) : (twoSources i).Constructed := by
  match i with
  | 0 => exact constructed_firstSource
  | 1 => exact constructed_secondSource
  | 2 => exact constructed_firstSplitter

theorem nodePrefix_twoSources (i : Fin 3) : (twoSources i).svsPubSub.nodePrefix =
    Reference.components ["node-WordCount", toString (i.val + 1)] := by
  match i with
  | 0 => rfl
  | 1 => rfl
  | 2 => rfl

theorem distinct_twoSources :
    Function.Injective (fun i => (twoSources i).svsPubSub.nodePrefix) := by
  intro i j same
  simp only [nodePrefix_twoSources] at same
  decide +revert

theorem acknowledged_firstConsumed : ∃ publication item,
    (run twoSources firstConsumed 2).svsPubSub.publications = [publication] ∧
      publication.source = .acknowledged "t2l" item ∧
      item.producerPrefix = Reference.components ["node-WordCount", "1"] := ⟨_, _, rfl, rfl, rfl⟩

theorem completed_firstConsumed (i : Fin 3) :
    ∀ x ∈ (run twoSources firstConsumed i).completedItems,
      x.2.producerPrefix = Reference.components ["node-WordCount", "1"] := by
  match i with
  | 0 => decide
  | 1 => decide
  | 2 => decide

theorem unconsumed_firstConsumed (seqNo : UInt64) :
    ¬ Consumed (run twoSources firstConsumed) 1 seqNo := by
  rintro ⟨consumer, edge, index, item, completed, found, _⟩
  have first := completed_firstConsumed consumer _ completed
  obtain ⟨_, _, rfl⟩ := Option.map_eq_some_iff.mp found
  have second : (run twoSources firstConsumed 1).svsPubSub.nodePrefix =
      Reference.components ["node-WordCount", "2"] := rfl
  rw [second] at first
  have different : Reference.components ["node-WordCount", "2"] ≠
      Reference.components ["node-WordCount", "1"] := by decide
  exact different first

theorem second_pushed : (run twoSources firstConsumed 1).Pushes 1 :=
  ⟨0, _, "t2l", rfl, rfl, rfl⟩

theorem second_stored : (run twoSources firstConsumed 1).svsPubSub.Stores 1 :=
  ⟨_, List.mem_cons_self, rfl⟩

theorem second_emptied :
    (run twoSources (firstConsumed ++ [acknowledgeTo 1]) 1).svsPubSub.dataStore = [] := rfl

/-- The consumer acknowledges item 1 of the first source. The second source, whose own
item 1 nobody has consumed, erases it. -/
theorem unconsumed_item_erased : (∀ i, (twoSources i).Constructed) ∧
    Function.Injective (fun i => (twoSources i).svsPubSub.nodePrefix) ∧
    ¬ ∀ x ∈ Transition.steps step twoSources (firstConsumed ++ [acknowledgeTo 1]),
      SafeStep x.1 x.2 := by
  refine ⟨constructed_twoSources, distinct_twoSources, fun safe => ?_⟩
  have last := safe (run twoSources firstConsumed, acknowledgeTo 1)
    (Transition.mem_steps.mpr ⟨firstConsumed, [], rfl, rfl⟩)
  have erased : ¬ (run twoSources (firstConsumed ++ [acknowledgeTo 1]) 1).svsPubSub.Stores
      1 := by
    rintro ⟨packet, member, _⟩
    rw [second_emptied] at member
    contradiction
  rw [run, Transition.run_append] at erased
  exact unconsumed_firstConsumed 1 (last 1 1 second_pushed second_stored erased)

theorem owned_firstConsumed :
    ∀ x ∈ Transition.steps step twoSources (firstConsumed ++ [acknowledgeTo 0]),
      Owned x.1 x.2 := by
  have consumer : (run twoSources (firstConsumed.take 4) 2).svsPubSub.subscriptions.find?
      (Reference.handle 2) = some (IceflowConsumer.subscriptionFor
        (Reference.components ["WordCount", "t2l"]) "t2l" 0) := rfl
  intro x member
  simp only [firstConsumed, List.cons_append, List.nil_append, Transition.steps, List.mem_cons,
    List.not_mem_nil, or_false] at member
  rcases member with rfl | rfl | rfl | rfl | rfl | rfl
  · trivial
  · trivial
  · trivial
  · trivial
  · rintro _ publication _ ⟨subscription, found, _, receiver⟩
    rw [← Option.some.inj (consumer.symm.trans found)] at receiver
    simp [IceflowConsumer.subscriptionFor, Receiver.isConsumer] at receiver
  · rintro _ publication published _
    obtain ⟨acknowledgement, item, log, source, own⟩ := acknowledged_firstConsumed
    have same : acknowledgement = publication := by
      change (run twoSources firstConsumed 2).svsPubSub.publications[0]? = _ at published
      rw [log] at published
      simpa using published
    rw [← same]
    exact Or.inl ⟨"t2l", item, source, own⟩

theorem acknowledgement_safe_firstConsumed :
    AcknowledgementSafe twoSources (firstConsumed ++ [acknowledgeTo 0]) :=
  acknowledgement_safe constructed_twoSources distinct_twoSources _ owned_firstConsumed

end
end Network
end Iceflow
