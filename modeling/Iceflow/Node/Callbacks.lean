import Iceflow.Node.Invocations
import Iceflow.Node.Items
import Iceflow.Node.Serving

/-! What the application does through its callbacks over a whole run of a node: the
callback of a consumer is the one that was registered last, so what the node pushes and what
it keeps in memory follow from the items that were handled. -/
namespace Iceflow
variable [Platform] {μ : Type}

def Op.registers : Op μ → Option (String × ConsumerCallback μ)
  | .call (.registerConsumerCallback edge callback) => some (edge, callback)
  | .call (.registerProsumerCallback edge callback) =>
    some (edge, fun memory data => callback memory data Script.push)
  | _ => none

def Op.registersFor (edge : String) (op : Op μ) : Option (ConsumerCallback μ) :=
  op.registers.bind (fun registration =>
    if registration.1 = edge then some registration.2 else none)

def lastRegistered (edge : String) (ops : List (Op μ)) : Option (ConsumerCallback μ) :=
  (ops.filterMap (Op.registersFor edge)).getLast?

def Op.pushes (edge : String) : Op μ → Option Bytes
  | .call (.pushData e payload) => if e = edge then some payload else none
  | _ => none

def Publication.pushedData (edge : String) (publication : Publication) : Option Bytes :=
  if publication.source = .pushed edge then some publication.data else none

theorem Op.registersFor_eq_some {op : Op μ} {edge : String} {callback : ConsumerCallback μ} :
    op.registersFor edge = some callback ↔ op.registers = some (edge, callback) := by
  rw [registersFor, Option.bind_eq_some_iff]
  constructor
  · rintro ⟨⟨e, held⟩, registers, same⟩
    by_cases here : e = edge
    · subst here
      rw [if_pos rfl] at same
      cases same
      exact registers
    · rw [if_neg here] at same
      cases same
  · intro registers
    exact ⟨(edge, callback), registers, if_pos rfl⟩

theorem lastRegistered_concat (edge : String) (ops : List (Op μ)) (op : Op μ) :
    lastRegistered edge (ops ++ [op]) = (op.registersFor edge).or (lastRegistered edge ops) := by
  rw [lastRegistered, List.filterMap_append, List.getLast?_append, lastRegistered]
  congr 1
  cases made : op.registersFor edge <;> simp [made]

namespace IceFlow

def callbackOf (n : IceFlow μ) (edge : String) : Option (ConsumerCallback μ) :=
  (n.iceflowConsumers.lookup edge).bind IceflowConsumer.consumerCallback

/-- The bytes that were pushed to an edge, in the order of the publication log. -/
def pushedData (n : IceFlow μ) (edge : String) : List Bytes :=
  n.svsPubSub.publications.filterMap (Publication.pushedData edge)

/-- The items that the callback of an edge was called with, in order. -/
def invokedItems (n : IceFlow μ) (edge : String) : List SubscriptionData :=
  n.history.filterMap (invokedItem edge)

/-- What other nodes receive of the publications that were pushed to an edge. -/
def pushedItems (n : IceFlow μ) (edge : String) : List SubscriptionData :=
  n.svsPubSub.publications.zipIdx.filterMap (fun published =>
    if published.1.source = .pushed edge then n.svsPubSub.subscriptionData published.2 else none)

theorem data_pushedItems (n : IceFlow μ) (edge : String) :
    (n.pushedItems edge).map SubscriptionData.data = n.pushedData edge := by
  have indexed : n.pushedData edge = n.svsPubSub.publications.zipIdx.filterMap
      (fun published => Publication.pushedData edge published.1) := by
    conv_lhs => rw [pushedData, ← List.zipIdx_map_fst 0 n.svsPubSub.publications,
      List.filterMap_map]
    rfl
  rw [indexed, pushedItems, List.map_filterMap]
  apply List.filterMap_congr
  rintro ⟨publication, index⟩ member
  have found : n.svsPubSub.publications[index]? = some publication :=
    List.mem_zipIdx_iff_getElem?.mp member
  simp only [Publication.pushedData]
  split
  · rw [SVSPubSub.subscriptionData, found]
    rfl
  · rfl

theorem callbackOf_insert (n : IceFlow μ) {edge : String} (consumer : IceflowConsumer μ)
    (e : String) :
    callbackOf { n with iceflowConsumers := n.iceflowConsumers.insert edge consumer } e =
      if e = edge then consumer.consumerCallback else n.callbackOf e := by
  rw [callbackOf, StringMap.lookup_insert]
  split <;> rfl

theorem callbackOf_eq (n : IceFlow μ) (edge : String) :
    n.callbackOf edge =
      ((n.iceflowConsumers.lookup edge).map IceflowConsumer.consumerCallback).join := by
  rw [callbackOf]
  cases n.iceflowConsumers.lookup edge <;> rfl

theorem known_of_callbackOf {n : IceFlow μ} {edge : String}
    (registered : n.callbackOf edge ≠ none) : edge ∈ n.iceflowConsumers := by
  obtain ⟨callback, held⟩ := Option.ne_none_iff_exists'.mp registered
  obtain ⟨consumer, found, _⟩ := Option.bind_eq_some_iff.mp held
  exact StringMap.mem_of_lookup found

theorem callbackOf_registerConsumerCallback {n : IceFlow μ} {edge : String}
    (known : edge ∈ n.iceflowConsumers) (e : String) (callback : ConsumerCallback μ) :
    (n.registerConsumerCallback e callback).2.callbackOf edge =
      (if e = edge then some callback else none).or (n.callbackOf edge) := by
  unfold registerConsumerCallback
  split
  · rename_i absent
    have other : e ≠ edge := by
      rintro rfl
      exact AList.lookup_eq_none.mp absent known
    rw [if_neg other, Option.none_or]
  · rw [callbackOf_insert]
    by_cases here : e = edge
    · rw [if_pos here.symm, if_pos here]
      rfl
    · rw [if_neg (Ne.symm here), if_neg here, Option.none_or]

theorem callbackOf_perform {n : IceFlow μ} (wf : WellFormed n) {edge : String}
    (known : edge ∈ n.iceflowConsumers) (op : Op μ) :
    (op.perform n).callbackOf edge = (op.registersFor edge).or (n.callbackOf edge) := by
  cases op with
  | deliver handle item now =>
    rw [callbackOf_eq n, ← callbacks_deliver n handle item now edge, ← callbackOf_eq]
    rfl
  | call c =>
    cases c with
    | registerConsumerCallback e callback =>
      exact callbackOf_registerConsumerCallback known e callback
    | registerProsumerCallback e callback =>
      exact callbackOf_registerConsumerCallback known e
        (fun memory data => callback memory data Script.push)
    | repartitionConsumer e partitions =>
      change (n.repartitionConsumer e partitions).2.callbackOf edge = n.callbackOf edge
      cases found : n.iceflowConsumers.lookup e with
      | none => rw [repartitionConsumer_unknown found]
      | some consumer =>
        obtain ⟨_, added, done⟩ := repartitionConsumer_known wf found partitions
        rw [callbackOf, done.lookup]
        split
        · rename_i same
          rw [same, callbackOf, found]
          rfl
        · rfl
    | getConsumerStats now =>
      change (n.getConsumerStats now).2.callbackOf edge = n.callbackOf edge
      rw [getConsumerStats_node wf.live]
      rfl
    | getProducerStats now => rfl
    | pushData e payload =>
      change (n.pushData e payload).2.callbackOf edge = n.callbackOf edge
      rw [callbackOf, consumers_pushData, callbackOf]
    | repartitionProducer e count =>
      change (n.repartitionProducer e count).2.callbackOf edge = n.callbackOf edge
      unfold repartitionProducer
      split
      · rfl
      · split <;> rfl

theorem callbackOf_kept {n : IceFlow μ} (wf : WellFormed n) (op : Op μ) {edge : String}
    (registered : n.callbackOf edge ≠ none) : (op.perform n).callbackOf edge ≠ none := by
  rw [callbackOf_perform wf (known_of_callbackOf registered)]
  cases op.registersFor edge with
  | none => exact registered
  | some callback => exact Option.some_ne_none callback

/-- A consumer calls the callback that was registered last for its edge. -/
theorem Constructed.callbackOf_run {n₀ : IceFlow μ} (constructed : n₀.Constructed)
    {edge : String} (known : edge ∈ n₀.iceflowConsumers) (ops : List (Op μ)) :
    (n₀.run ops).callbackOf edge = lastRegistered edge ops := by
  induction ops using List.reverseRecOn with
  | nil =>
    obtain ⟨dagParser, nodeName, environment, built⟩ := constructed
    change n₀.callbackOf edge = none
    rw [callbackOf, (construct_fresh built).consumers, Option.bind_eq_none_iff]
    intro consumer found
    rw [constructConsumers_lookup found]
    rfl
  | append_singleton ops op ih =>
    have present := (constructed.mem_consumers_run ops edge).mpr known
    rw [run_concat, callbackOf_perform (constructed.run_wellFormed ops) present, ih,
      lastRegistered_concat]

theorem Constructed.registered_of_callbackOf {n₀ : IceFlow μ} (constructed : n₀.Constructed)
    {ops : List (Op μ)} {edge : String} {callback : ConsumerCallback μ}
    (held : (n₀.run ops).callbackOf edge = some callback) :
    ∃ op ∈ ops, op.registers = some (edge, callback) := by
  have known : edge ∈ n₀.iceflowConsumers := by
    rw [← constructed.mem_consumers_run ops]
    exact known_of_callbackOf (by simp [held])
  rw [constructed.callbackOf_run known] at held
  obtain ⟨op, member, registered⟩ := List.mem_filterMap.mp (List.mem_of_getLast? held)
  exact ⟨op, member, Op.registersFor_eq_some.mp registered⟩

/-- What all registrations of a run have in common, its callbacks have. -/
theorem Constructed.held {n₀ : IceFlow μ} (constructed : n₀.Constructed)
    {Q : String → ConsumerCallback μ → Prop} {ops : List (Op μ)}
    (registers : ∀ op ∈ ops, ∀ edge callback, op.registers = some (edge, callback) →
      Q edge callback) (edge : String) (callback : ConsumerCallback μ)
    (now : (n₀.run ops).callbackOf edge = some callback) : Q edge callback := by
  obtain ⟨op, member, registered⟩ := constructed.registered_of_callbackOf now
  exact registers op member edge callback registered

/-- The callback pushes to one edge what `f` makes of the bytes, and returns. -/
def Answers (edge : String) (f : Bytes → List Bytes) (callback : ConsumerCallback μ) : Prop :=
  ∀ memory data, (callback memory data).returns = true ∧
    (callback memory data).requests = (f data).map (fun output => (edge, output))

theorem Reaches.callbackOf {n : IceFlow μ} {handle : Handle} {item : SubscriptionData}
    {edge : String} {callback : ConsumerCallback μ}
    (reaches : n.Reaches handle item edge callback) : n.callbackOf edge = some callback := by
  obtain ⟨consumer, held, registered⟩ := reaches.registered
  rw [IceFlow.callbackOf, held, Option.bind_some, registered]

theorem pushedData_of_outputs {n : IceFlow μ} {edge : String} {payloads : List Bytes}
    {outputs : List Publication}
    (published : List.Forall₂ n.Output (payloads.map (fun output => (edge, output))) outputs) :
    outputs.filterMap (Publication.pushedData edge) = payloads := by
  induction payloads generalizing outputs with
  | nil =>
    cases published
    rfl
  | cons payload rest ih =>
    cases published with
    | cons output later =>
      obtain ⟨_, data, source⟩ := output
      rw [List.filterMap_cons_some (b := payload) (by simp [Publication.pushedData, data, source]),
        ih later]

theorem pushedData_perform {n : IceFlow μ} (wf : WellFormed n) {inEdge outEdge : String}
    {f : Bytes → List Bytes} (known : outEdge ∈ n.iceflowProducers)
    (held : ∀ edge callback, n.callbackOf edge = some callback →
      edge = inEdge ∧ Answers outEdge f callback) (op : Op μ) :
    ∃ items, (op.perform n).invokedItems inEdge = n.invokedItems inEdge ++ items ∧
      (op.perform n).pushedData outEdge = n.pushedData outEdge ++
        ((op.pushes outEdge).toList ++ items.flatMap (fun item => f item.data)) := by
  have quiet (silent : Silent n (op.perform n)) (none : op.pushes outEdge = none) :
      ∃ items, (op.perform n).invokedItems inEdge = n.invokedItems inEdge ++ items ∧
        (op.perform n).pushedData outEdge = n.pushedData outEdge ++
          ((op.pushes outEdge).toList ++ items.flatMap (fun item => f item.data)) := by
    refine ⟨[], ?_, ?_⟩
    · rw [invokedItems, silent.history, List.append_nil, invokedItems]
    · rw [pushedData, silent.publications, none, pushedData]
      simp
  cases op with
  | call c =>
    by_cases pushes : ∃ edge payload, c = .pushData edge payload
    · obtain ⟨edge, payload, rfl⟩ := pushes
      refine ⟨[], ?_, ?_⟩
      · rw [invokedItems, List.append_nil, invokedItems]
        congr 1
        by_cases present : edge ∈ n.iceflowProducers
        · obtain ⟨_, publication, pushed⟩ := pushData_known wf present payload
          exact pushed.history
        · rw [Op.perform, Call.perform, pushData_unknown present]
      · by_cases present : edge ∈ n.iceflowProducers
        · obtain ⟨_, publication, pushed⟩ := pushData_known wf present payload
          rw [pushedData, Op.perform, Call.perform, pushed.publications, List.filterMap_append,
            pushedData]
          by_cases here : edge = outEdge <;>
            simp [Publication.pushedData, pushed.source, pushed.data, Op.pushes, here]
        · have other : edge ≠ outEdge := by
            rintro rfl
            exact present known
          rw [Op.perform, Call.perform, pushData_unknown present]
          simp [Op.pushes, other]
    · apply quiet (silent_call wf fun edge payload same => pushes ⟨edge, payload, same⟩)
      cases c with
      | pushData edge payload => exact absurd ⟨edge, payload, rfl⟩ pushes
      | _ => rfl
  | deliver handle item now =>
    by_cases reached : ∃ edge callback, n.Reaches handle item edge callback
    · obtain ⟨edge, callback, reaches⟩ := reached
      obtain ⟨rfl, answers⟩ := held edge callback reaches.callbackOf
      obtain ⟨outputs, acknowledgement, events, handled⟩ := reaches.handled wf now
      obtain ⟨returns, requests⟩ := answers n.memory item.data
      have completes : n.Completes (callback n.memory item.data) := by
        refine ⟨returns, ?_⟩
        intro request asked
        rw [requests] at asked
        obtain ⟨output, _, rfl⟩ := List.mem_map.mp asked
        exact known
      obtain ⟨_, ⟨publication, rfl, _, _, source⟩, rfl⟩ := handled.completed completes
      have published := handled.outputs
      rw [servedRequests_eq completes, requests] at published
      refine ⟨[item], ?_, ?_⟩
      · rw [invokedItems, Op.perform, handled.history, List.filterMap_append, invokedItems]
        simp [invokedItem]
      · rw [pushedData, Op.perform, handled.publications, List.filterMap_append,
          List.filterMap_append, pushedData_of_outputs published, pushedData]
        simp [Publication.pushedData, source, Op.pushes]
    · obtain ⟨dataStore, unchanged, _⟩ := deliver_unreached
        (fun edge callback reaches => reached ⟨edge, callback, reaches⟩) now
      apply quiet _ rfl
      rw [Op.perform, unchanged]
      exact ⟨rfl, rfl, rfl⟩

/-- Over a run, a node pushes what its operations push themselves and what its callbacks
make of the items they are called with. -/
theorem Constructed.pushedData_run {n₀ : IceFlow μ} (constructed : n₀.Constructed)
    {inEdge outEdge : String} {f : Bytes → List Bytes} (known : outEdge ∈ n₀.iceflowProducers)
    {ops : List (Op μ)}
    (registers : ∀ op ∈ ops, ∀ edge callback, op.registers = some (edge, callback) →
      edge = inEdge ∧ Answers outEdge f callback) :
    ((n₀.run ops).pushedData outEdge).Perm (ops.filterMap (Op.pushes outEdge) ++
      ((n₀.run ops).invokedItems inEdge).flatMap (fun item => f item.data)) := by
  induction ops using List.reverseRecOn with
  | nil =>
    obtain ⟨dagParser, nodeName, environment, built⟩ := constructed
    have fresh := construct_fresh built
    simp [pushedData, invokedItems, fresh.publications, fresh.history]
  | append_singleton ops op ih =>
    have earlier := fun op member => registers op (List.mem_append_left _ member)
    have before := ih earlier
    have held : ∀ edge callback, (n₀.run ops).callbackOf edge = some callback →
        edge = inEdge ∧ Answers outEdge f callback := constructed.held earlier
    have present : outEdge ∈ (n₀.run ops).iceflowProducers :=
      (StringMap.mem_congr ((constructed.run_producers ops).2 outEdge)).mpr known
    obtain ⟨items, invoked, pushed⟩ :=
      pushedData_perform (constructed.run_wellFormed ops) present held op
    rw [run_concat, invoked, pushed, List.filterMap_append, List.flatMap_append]
    have new : [op].filterMap (Op.pushes outEdge) = (op.pushes outEdge).toList := by
      cases made : op.pushes outEdge <;> simp [made]
    rw [new]
    rw [List.perm_iff_count] at before ⊢
    intro payload
    have counted := before payload
    simp only [List.count_append] at counted ⊢
    omega

/-- The callback only changes the memory, by `g`. -/
def Updates (g : μ → Bytes → μ) (callback : ConsumerCallback μ) : Prop :=
  ∀ memory data, callback memory data = .done (g memory data)

theorem memory_saveTimestamp (n : IceFlow μ) (edge : String) (timestamp : Int) :
    (n.saveTimestamp edge timestamp).memory = n.memory := by
  unfold saveTimestamp
  split <;> rfl

theorem memory_acknowledge (n : IceFlow μ) (consumer : IceflowConsumer μ) (edge : String)
    (item : SubscriptionData) : (n.acknowledge consumer edge item).2.memory = n.memory := by
  unfold acknowledge
  split
  · rfl
  · split <;> rfl

theorem memory_pushData (n : IceFlow μ) (edge : String) (payload : Bytes) :
    (n.pushData edge payload).2.memory = n.memory := by
  unfold pushData
  split <;> rfl

theorem memory_call {n : IceFlow μ} (wf : WellFormed n) (c : Call μ) :
    (c.perform n).memory = n.memory ∧ (c.perform n).history = n.history := by
  by_cases pushes : ∃ edge payload, c = .pushData edge payload
  · obtain ⟨edge, payload, rfl⟩ := pushes
    refine ⟨memory_pushData n edge payload, ?_⟩
    by_cases present : edge ∈ n.iceflowProducers
    · obtain ⟨_, publication, pushed⟩ := pushData_known wf present payload
      exact pushed.history
    · rw [Call.perform, pushData_unknown present]
  · have silent := silent_call wf fun edge payload same => pushes ⟨edge, payload, same⟩
    exact ⟨silent.memory, silent.history⟩

theorem memory_perform {n : IceFlow μ} (wf : WellFormed n) {inEdge : String}
    {g : μ → Bytes → μ} (held : ∀ edge callback, n.callbackOf edge = some callback →
      edge = inEdge ∧ Updates g callback) (op : Op μ) :
    ∃ items, (op.perform n).invokedItems inEdge = n.invokedItems inEdge ++ items ∧
      (op.perform n).memory = items.foldl (fun memory item => g memory item.data) n.memory := by
  cases op with
  | call c =>
    obtain ⟨memory, history⟩ := memory_call wf c
    refine ⟨[], ?_, memory⟩
    rw [invokedItems, Op.perform, history, List.append_nil, invokedItems]
  | deliver handle item now =>
    by_cases reached : ∃ edge callback, n.Reaches handle item edge callback
    · obtain ⟨edge, callback, reaches⟩ := reached
      obtain ⟨rfl, updates⟩ := held edge callback reaches.callbackOf
      obtain ⟨outputs, acknowledgement, events, handled⟩ := reaches.handled wf now
      have completes : n.Completes (callback n.memory item.data) := by
        rw [updates]
        exact ⟨rfl, by simp [Script.requests]⟩
      obtain ⟨_, _, rfl⟩ := handled.completed completes
      refine ⟨[item], ?_, ?_⟩
      · rw [invokedItems, Op.perform, handled.history, List.filterMap_append, invokedItems]
        simp [invokedItem]
      · obtain ⟨consumer, present, registered⟩ := reaches.registered
        have script := updates n.memory item.data
        simp only [Op.perform, reaches.deliver_eq now, subscribeCallBack, present, registered,
          script, runScript, memory_acknowledge, memory_saveTimestamp]
        rfl
    · obtain ⟨dataStore, unchanged, _⟩ := deliver_unreached
        (fun edge callback reaches => reached ⟨edge, callback, reaches⟩) now
      rw [Op.perform, unchanged]
      exact ⟨[], by rw [List.append_nil]; rfl, rfl⟩

theorem Constructed.memory_run {n₀ : IceFlow μ} (constructed : n₀.Constructed)
    {inEdge : String} {g : μ → Bytes → μ} {ops : List (Op μ)}
    (registers : ∀ op ∈ ops, ∀ edge callback, op.registers = some (edge, callback) →
      edge = inEdge ∧ Updates g callback) :
    (n₀.run ops).memory =
      ((n₀.run ops).invokedItems inEdge).foldl (fun memory item => g memory item.data)
        n₀.memory := by
  induction ops using List.reverseRecOn with
  | nil =>
    obtain ⟨dagParser, nodeName, environment, built⟩ := constructed
    simp [invokedItems, (construct_fresh built).history]
  | append_singleton ops op ih =>
    have earlier := fun op member => registers op (List.mem_append_left _ member)
    have before := ih earlier
    have held : ∀ edge callback, (n₀.run ops).callbackOf edge = some callback →
        edge = inEdge ∧ Updates g callback := constructed.held earlier
    obtain ⟨items, invoked, changed⟩ :=
      memory_perform (constructed.run_wellFormed ops) held op
    rw [run_concat, invoked, changed, before, List.foldl_append]

end IceFlow
end Iceflow
