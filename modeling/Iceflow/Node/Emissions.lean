import Iceflow.Node.Callbacks
import Iceflow.Node.Serving
import Mathlib.Data.Multiset.Bind

/-! What a node pushes to an edge when it has callbacks for several edges, which may push to
several edges, ask for edges that the node does not have, or throw. -/
namespace Iceflow
variable [Platform] {μ : Type}

/-- The call of a callback, with the edge it is registered for. -/
def Event.invocation : Event → Option (String × SubscriptionData)
  | .invoked edge item => some (edge, item)
  | _ => none

def requestTo (out : String) (request : String × Bytes) : Option Bytes :=
  if request.1 = out then some request.2 else none

namespace IceFlow

def invocations (n : IceFlow μ) : List (String × SubscriptionData) :=
  n.history.filterMap Event.invocation

theorem invokedItems_invocations (n : IceFlow μ) (edge : String) :
    n.invokedItems edge =
      n.invocations.filterMap (fun call => if call.1 = edge then some call.2 else none) := by
  rw [invokedItems, invocations, List.filterMap_filterMap]
  congr 1
  funext event
  cases event <;> rfl

theorem bind_invocations {β : Type} (n : IceFlow μ) (edge : String)
    (g : String → SubscriptionData → Multiset β) :
    ((n.invocations : Multiset (String × SubscriptionData)).filter
        (fun call => call.1 = edge)).bind (fun call => g call.1 call.2) =
      (n.invokedItems edge : Multiset SubscriptionData).bind (g edge) := by
  rw [invokedItems_invocations, ← Multiset.filterMap_coe, Multiset.bind_filterMap,
    Multiset.bind_filter]
  apply Multiset.bind_congr
  rintro ⟨e, item⟩ _
  by_cases here : e = edge
  · subst here
    simp
  · simp [here]

/-- Whatever the memory, the callback pushes `f` of the bytes to an edge of the node before it
returns or throws. -/
def Emits (n : IceFlow μ) (out : String) (f : Bytes → List Bytes)
    (callback : ConsumerCallback μ) : Prop :=
  ∀ memory data, (n.servedRequests (callback memory data)).filterMap (requestTo out) = f data

theorem Emits.congr {n n' : IceFlow μ} (same : ∀ edge, edge ∈ n'.iceflowProducers ↔
    edge ∈ n.iceflowProducers) {out : String} {f : Bytes → List Bytes}
    {callback : ConsumerCallback μ} (emits : n.Emits out f callback) : n'.Emits out f callback := by
  intro memory data
  rw [← emits memory data, servedRequests, servedRequests]
  simp only [same]

theorem Emits.eq_nil {n : IceFlow μ} {out : String} (unknown : out ∉ n.iceflowProducers)
    {f : Bytes → List Bytes} {callback : ConsumerCallback μ} (emits : n.Emits out f callback)
    (memory : μ) (data : Bytes) : f data = [] := by
  rw [← emits memory data, List.filterMap_eq_nil_iff]
  intro request served
  have known : request.1 ∈ n.iceflowProducers := by
    simpa using List.mem_takeWhile_imp served
  refine if_neg fun same => unknown ?_
  rw [← same]
  exact known

theorem Answers.emits {n : IceFlow μ} {edge : String} {g : Bytes → List Bytes}
    {callback : ConsumerCallback μ} (answers : Answers edge g callback)
    (present : edge ∈ n.iceflowProducers) (out : String) :
    n.Emits out (fun data => if out = edge then g data else []) callback := by
  intro memory data
  obtain ⟨returns, requests⟩ := answers memory data
  have completes : n.Completes (callback memory data) := by
    refine ⟨returns, fun request listed => ?_⟩
    rw [requests] at listed
    obtain ⟨output, _, rfl⟩ := List.mem_map.mp listed
    exact present
  rw [servedRequests_eq completes, requests, List.filterMap_map]
  by_cases here : out = edge
  · subst here
    simp [Function.comp_def, requestTo]
  · simp [Function.comp_def, requestTo, here, Ne.symm here]

theorem Updates.emits {n : IceFlow μ} {g : μ → Bytes → μ} {callback : ConsumerCallback μ}
    (updates : Updates g callback) (out : String) : n.Emits out (fun _ => []) callback := by
  intro memory data
  rw [updates memory data]
  rfl

theorem pushedData_of_served {n : IceFlow μ} {out : String} {requests : List (String × Bytes)}
    {outputs : List Publication} (published : List.Forall₂ n.Output requests outputs) :
    outputs.filterMap (Publication.pushedData out) = requests.filterMap (requestTo out) := by
  induction published with
  | nil => rfl
  | cons output _ ih =>
    obtain ⟨_, data, source⟩ := output
    simp only [List.filterMap_cons, Publication.pushedData, requestTo, source, data, ih,
      Source.pushed.injEq]

def direct (n : IceFlow μ) (out : String) (op : Op μ) : Option Bytes :=
  if out ∈ n.iceflowProducers then op.pushes out else none

theorem pushedData_call {n : IceFlow μ} (wf : WellFormed n) (out : String) (c : Call μ) :
    (c.perform n).pushedData out = n.pushedData out ++ (n.direct out (.call c)).toList := by
  by_cases pushes : ∃ edge payload, c = .pushData edge payload
  · obtain ⟨edge, payload, rfl⟩ := pushes
    by_cases present : edge ∈ n.iceflowProducers
    · obtain ⟨_, publication, pushed⟩ := pushData_known wf present payload
      rw [pushedData, Call.perform, pushed.publications, List.filterMap_append, pushedData]
      by_cases here : edge = out
      · subst here
        simp [Publication.pushedData, pushed.source, pushed.data, direct, Op.pushes, present]
      · simp [Publication.pushedData, pushed.source, direct, Op.pushes, here]
    · rw [Call.perform, pushData_unknown present]
      by_cases here : edge = out
      · subst here
        simp [direct, present]
      · simp [direct, Op.pushes, here]
  · have silent := silent_call wf fun edge payload same => pushes ⟨edge, payload, same⟩
    have none : n.direct out (.call c) = none := by
      cases c with
      | pushData edge payload => exact absurd ⟨edge, payload, rfl⟩ pushes
      | _ => exact ite_self _
    rw [pushedData, silent.publications, none, Option.toList_none, List.append_nil, pushedData]

theorem emitted_perform {n : IceFlow μ} (wf : WellFormed n) (op : Op μ) :
    ∃ called, (op.perform n).invocations = n.invocations ++ called ∧
      (∀ call ∈ called, n.callbackOf call.1 ≠ none) ∧
      ∀ (out : String) (f : String → Bytes → List Bytes),
        (∀ edge callback, n.callbackOf edge = some callback → n.Emits out (f edge) callback) →
          (op.perform n).pushedData out = n.pushedData out ++
            ((n.direct out op).toList ++ called.flatMap (fun call => f call.1 call.2.data)) := by
  cases op with
  | call c =>
    refine ⟨[], ?_, by simp, fun out f held => ?_⟩
    · have same : (c.perform n).history = n.history := (memory_call wf c).2
      rw [invocations, Op.perform, same, List.append_nil, invocations]
    · rw [List.flatMap_nil, List.append_nil]
      exact pushedData_call wf out c
  | deliver handle item now =>
    have none (out : String) : n.direct out (.deliver handle item now) = none := ite_self _
    simp only [none, Op.perform]
    by_cases reached : ∃ edge callback, n.Reaches handle item edge callback
    · obtain ⟨edge, callback, reaches⟩ := reached
      obtain ⟨outputs, acknowledgement, events, handled⟩ := reaches.handled wf now
      have ends : events.filterMap Event.invocation = [(edge, item)] ∧
          ∀ out, acknowledgement.filterMap (Publication.pushedData out) = [] := by
        by_cases completes : n.Completes (callback n.memory item.data)
        · obtain ⟨_, ⟨publication, rfl, _, _, source⟩, rfl⟩ := handled.completed completes
          exact ⟨rfl, fun out => by simp [Publication.pushedData, source]⟩
        · obtain ⟨_, rfl, rfl⟩ := handled.failed completes
          exact ⟨rfl, fun _ => rfl⟩
      refine ⟨[(edge, item)], ?_, ?_, fun out f held => ?_⟩
      · rw [invocations, handled.history, List.filterMap_append, ends.1, invocations]
      · simp [reaches.callbackOf]
      · have emits := held edge callback reaches.callbackOf n.memory item.data
        rw [pushedData, handled.publications, List.filterMap_append, List.filterMap_append,
          ends.2, pushedData_of_served handled.outputs, emits, pushedData]
        simp
    · obtain ⟨dataStore, unchanged, _⟩ := deliver_unreached
        (fun edge callback reaches => reached ⟨edge, callback, reaches⟩) now
      rw [unchanged]
      exact ⟨[], by simp [invocations], by simp, fun out f held => by simp [pushedData]⟩

namespace Constructed
variable {n₀ : IceFlow μ}

theorem mem_producers_run (constructed : n₀.Constructed) (ops : List (Op μ)) (edge : String) :
    edge ∈ (n₀.run ops).iceflowProducers ↔ edge ∈ n₀.iceflowProducers :=
  StringMap.mem_congr ((constructed.run_producers ops).2 edge)

/-- Callbacks are called for edges that the node consumes and that they were registered for. -/
theorem invoked_registered (constructed : n₀.Constructed) {ops : List (Op μ)}
    {call : String × SubscriptionData} (invoked : call ∈ (n₀.run ops).invocations) :
    call.1 ∈ n₀.iceflowConsumers ∧
      ∃ op ∈ ops, ∃ callback, op.registers = some (call.1, callback) := by
  induction ops using List.reverseRecOn with
  | nil =>
    obtain ⟨dagParser, nodeName, environment, built⟩ := constructed
    change call ∈ n₀.invocations at invoked
    rw [invocations, (construct_fresh built).history] at invoked
    cases invoked
  | append_singleton ops op ih =>
    obtain ⟨called, appended, held, _⟩ := emitted_perform (constructed.run_wellFormed ops) op
    rw [run_concat, appended] at invoked
    rcases List.mem_append.mp invoked with before | now
    · obtain ⟨known, earlier, member, registered⟩ := ih before
      exact ⟨known, earlier, List.mem_append_left _ member, registered⟩
    · obtain ⟨callback, found⟩ := Option.ne_none_iff_exists'.mp (held call now)
      obtain ⟨registration, member, registered⟩ := constructed.registered_of_callbackOf found
      obtain ⟨consumer, present, _⟩ := Option.bind_eq_some_iff.mp found
      refine ⟨?_, registration, List.mem_append_left _ member, callback, registered⟩
      exact (constructed.mem_consumers_run ops call.1).mp (StringMap.mem_of_lookup present)

/-- Over a run, a node pushes to an edge what its operations push themselves and what its
callbacks emit for the items they are called with. -/
theorem pushedData_emitted (constructed : n₀.Constructed) {out : String}
    {f : String → Bytes → List Bytes} {ops : List (Op μ)}
    (registers : ∀ op ∈ ops, ∀ edge callback, op.registers = some (edge, callback) →
      n₀.Emits out (f edge) callback) :
    ((n₀.run ops).pushedData out).Perm (ops.filterMap (n₀.direct out) ++
      (n₀.run ops).invocations.flatMap (fun call => f call.1 call.2.data)) := by
  induction ops using List.reverseRecOn with
  | nil =>
    obtain ⟨dagParser, nodeName, environment, built⟩ := constructed
    have fresh := construct_fresh built
    simp [pushedData, invocations, fresh.publications, fresh.history]
  | append_singleton ops op ih =>
    have earlier := fun op member => registers op (List.mem_append_left _ member)
    have before := ih earlier
    have producers := constructed.mem_producers_run ops
    have held (edge : String) (callback : ConsumerCallback μ)
        (now : (n₀.run ops).callbackOf edge = some callback) :
        (n₀.run ops).Emits out (f edge) callback :=
      (constructed.held earlier edge callback now).congr producers
    obtain ⟨called, invoked, _, pushed⟩ := emitted_perform (constructed.run_wellFormed ops) op
    have same : (n₀.run ops).direct out op = n₀.direct out op := by
      rw [direct, direct]
      simp only [producers]
    have new : [op].filterMap (n₀.direct out) = (n₀.direct out op).toList := by
      cases made : n₀.direct out op <;> simp [made]
    rw [run_concat, invoked, pushed out f held, List.filterMap_append, List.flatMap_append, new,
      same]
    rw [List.perm_iff_count] at before ⊢
    intro payload
    have counted := before payload
    simp only [List.count_append] at counted ⊢
    omega

end Constructed
end IceFlow
end Iceflow
