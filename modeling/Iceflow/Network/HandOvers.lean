import Iceflow.Network
import Iceflow.Node.Bookkeeping
import Iceflow.Node.Received

/-! The hand-overs of a run of nodes that exchange their publications, and what they do to
the consumers of one edge. A consumer is called with exactly what is handed to its
subscriptions, if it has a callback before it subscribes and keeps its subscriptions from
its first item on. -/
namespace Iceflow

/-- The publication at an index of the sender's log, handed to a subscription. -/
structure HandOver (ι : Type) [Platform] where
  receiver : ι
  handle : Handle
  sender : ι
  index : Nat
  deriving DecidableEq

namespace Network
open IceFlow
variable [Platform] {μ ι : Type} [DecidableEq ι]

/-- The hand-over of an action: to a live subscription that matches. -/
def handOver (nodes : ι → IceFlow μ) : Action ι μ → Option (HandOver ι)
  | .call _ _ => none
  | .deliver receiver handle sender index _ =>
    if receiver = sender then none
    else
      match (nodes sender).svsPubSub.subscriptionData index,
        (nodes receiver).svsPubSub.subscriptions.find? handle with
      | some item, some subscription =>
        if subscription.topic <+: item.name then some ⟨receiver, handle, sender, index⟩ else none
      | _, _ => none

def handOvers (start : ι → IceFlow μ) (actions : List (Action ι μ)) : List (HandOver ι) :=
  (Transition.steps step start actions).filterMap (fun x => handOver x.1 x.2)

def operationsOf (start : ι → IceFlow μ) (actions : List (Action ι μ)) (i : ι) : List (Op μ) :=
  (Transition.steps step start actions).filterMap (fun x =>
    (operation x.1 x.2).bind (fun target => if target.1 = i then some target.2 else none))

theorem run_concat (start : ι → IceFlow μ) (actions : List (Action ι μ)) (action : Action ι μ) :
    run start (actions ++ [action]) = step (run start actions) action :=
  Transition.run_append step start actions [action]

theorem handOvers_concat (start : ι → IceFlow μ) (actions : List (Action ι μ))
    (action : Action ι μ) : handOvers start (actions ++ [action]) =
      handOvers start actions ++ (handOver (run start actions) action).toList := by
  rw [handOvers, Transition.steps_append, List.filterMap_append, handOvers]
  cases same : handOver (run start actions) action <;> simp [Transition.steps, same]

theorem operationsOf_concat (start : ι → IceFlow μ) (actions : List (Action ι μ))
    (action : Action ι μ) (i : ι) : operationsOf start (actions ++ [action]) i =
      operationsOf start actions i ++ ((operation (run start actions) action).bind
        (fun target => if target.1 = i then some target.2 else none)).toList := by
  rw [operationsOf, Transition.steps_append, List.filterMap_append, operationsOf]
  congr 1

theorem step_of_operation {nodes : ι → IceFlow μ} {action : Action ι μ} {node : ι} {op : Op μ}
    (operated : operation nodes action = some (node, op)) :
    step nodes action = Function.update nodes node (op.perform (nodes node)) := by
  simp only [step, operated]

theorem run_node (start : ι → IceFlow μ) (actions : List (Action ι μ)) (i : ι) :
    run start actions i = (start i).run (operationsOf start actions i) := by
  induction actions using List.reverseRecOn with
  | nil => rfl
  | append_singleton actions action ih =>
    rw [run_concat, operationsOf_concat]
    cases operated : operation (run start actions) action with
    | none =>
      have same : step (run start actions) action = run start actions := by
        simp only [step, operated]
      rw [same, ih, Option.bind_none, Option.toList_none, List.append_nil]
    | some target =>
      obtain ⟨node, op⟩ := target
      rw [step_of_operation operated, Option.bind_some]
      by_cases here : node = i
      · subst here
        rw [Function.update_self, ih, if_pos rfl, Option.toList_some, IceFlow.run_concat]
      · rw [Function.update_of_ne (Ne.symm here), ih, if_neg here, Option.toList_none,
          List.append_nil]

def callsOf (i : ι) (actions : List (Action ι μ)) : List (Call μ) :=
  actions.filterMap (fun
    | .call j c => if j = i then some c else none
    | .deliver _ _ _ _ _ => none)

theorem called_operationsOf (start : ι → IceFlow μ) (actions : List (Action ι μ)) (i : ι) :
    (operationsOf start actions i).filterMap Op.called = callsOf i actions := by
  induction actions using List.reverseRecOn with
  | nil => rfl
  | append_singleton actions action ih =>
    rw [operationsOf_concat, List.filterMap_append, ih, callsOf, callsOf, List.filterMap_append]
    congr 1
    cases action with
    | call j c =>
      simp only [operation, Option.bind_some]
      by_cases here : j = i <;> simp [here, Op.called]
    | deliver receiver handle sender index now =>
      simp only [operation]
      split
      · rfl
      · cases (run start actions sender).svsPubSub.subscriptionData index with
        | none => rfl
        | some item =>
          simp only [Option.map_some, Option.bind_some]
          split <;> rfl

/-- A hand-over went to a subscription that the consumer of an edge has. -/
def goesTo (edge : String) (n : IceFlow μ) (handle : Handle) : Bool :=
  decide (handle ∈ (n.subscriptionsOf edge).map Prod.fst)

/-- The item of a hand-over to the consumer of an edge at a node. -/
def itemFor (edge : String) (nodes : ι → IceFlow μ) (i : ι) (h : HandOver ι) :
    Option SubscriptionData :=
  if h.receiver = i ∧ goesTo edge (nodes i) h.handle then
    (nodes h.sender).svsPubSub.subscriptionData h.index
  else none

/-- The consumer of an edge is repartitioned only with a callback and before its first item,
and the statistics of consumers are not queried. -/
def Settled (edge : String) (nodes : ι → IceFlow μ) : Action ι μ → Prop
  | .call i (.repartitionConsumer e _) =>
    e = edge → (nodes i).callbackOf edge ≠ none ∧ (nodes i).invokedItems edge = []
  | .call _ (.getConsumerStats _) => False
  | _ => True

/-- What was handed over is accounted for by the calls of callbacks. -/
structure Accounted (edge : String) (nodes : ι → IceFlow μ) (handed : List (HandOver ι)) :
    Prop where
  wellFormed : ∀ i, WellFormed (nodes i)
  callback : ∀ i, (nodes i).subscriptionsOf edge ≠ [] → (nodes i).callbackOf edge ≠ none
  issued : ∀ h ∈ handed, h.handle ∈ (nodes h.receiver).svsPubSub.subscriptions.issued
  matched : ∀ h ∈ handed, h.receiver ≠ h.sender ∧ ∃ item,
    (nodes h.sender).svsPubSub.subscriptionData h.index = some item ∧
      ∀ subscription, (h.handle, subscription) ∈ (nodes h.receiver).subscriptionsOf edge →
        subscription.topic <+: item.name
  invoked : ∀ i, (nodes i).invokedItems edge = handed.filterMap (itemFor edge nodes i)

theorem goesTo_iff {edge : String} {n : IceFlow μ} {handle : Handle} :
    goesTo edge n handle = true ↔
      ∃ subscription, (handle, subscription) ∈ n.subscriptionsOf edge := by
  simp [goesTo]

theorem hits_iff {edge : String} {n : IceFlow μ} {handle : Handle} {item : SubscriptionData} :
    n.hits edge handle item = true ↔
      ∃ subscription, (handle, subscription) ∈ n.subscriptionsOf edge ∧
        subscription.topic <+: item.name := by
  constructor
  · exact subscriptionsOf_of_hits
  · rintro ⟨subscription, member, matched⟩
    obtain ⟨live, receiver⟩ := List.mem_filter.mp member
    rw [IceFlow.hits, Registration.Registry.find?_of_mem live]
    exact decide_eq_true ⟨by simpa using receiver, matched⟩

theorem data_update {nodes : ι → IceFlow μ} (wf : ∀ i, WellFormed (nodes i)) (j : ι) (op : Op μ)
    {i : ι} {index : Nat} {item : SubscriptionData}
    (found : (nodes i).svsPubSub.subscriptionData index = some item) :
    (Function.update nodes j (op.perform (nodes j)) i).svsPubSub.subscriptionData index =
      some item := by
  by_cases here : i = j
  · subst here
    rw [Function.update_self]
    exact subscriptionData_perform (wf i) op found
  · rw [Function.update_of_ne here]
    exact found

/-- A node goes on: the subscriptions behind the handles in use stay, and the callback of the
edge is called with some items. -/
structure Continues (edge : String) (used : Handle → Prop) (n : IceFlow μ) (op : Op μ)
    (items : List SubscriptionData) : Prop where
  subscriptions : ∀ handle, used handle → ∀ subscription,
    (handle, subscription) ∈ (op.perform n).subscriptionsOf edge ↔
      (handle, subscription) ∈ n.subscriptionsOf edge
  issued : ∀ handle ∈ n.svsPubSub.subscriptions.issued,
    handle ∈ (op.perform n).svsPubSub.subscriptions.issued
  callback : (op.perform n).subscriptionsOf edge ≠ [] → (op.perform n).callbackOf edge ≠ none
  invoked : (op.perform n).invokedItems edge = n.invokedItems edge ++ items

theorem Continues.of_frame {edge : String} {used : Handle → Prop} {n : IceFlow μ} {op : Op μ}
    {items : List SubscriptionData} (wf : WellFormed n) (frame : Frame n (op.perform n))
    (callback : n.subscriptionsOf edge ≠ [] → n.callbackOf edge ≠ none)
    (invoked : (op.perform n).invokedItems edge = n.invokedItems edge ++ items) :
    Continues edge used n op items := by
  have same : (op.perform n).subscriptionsOf edge = n.subscriptionsOf edge := by
    rw [subscriptionsOf, frame.subscriptions, subscriptionsOf]
  constructor
  · simp [same]
  · rw [frame.subscriptions]
    exact fun _ member => member
  · rw [same]
    exact fun some => callbackOf_kept wf op (callback some)
  · exact invoked

theorem handOver_eq {nodes : ι → IceFlow μ} {receiver sender : ι} (different : receiver ≠ sender)
    {handle : Handle} {index : Nat} {now : Int} {item : SubscriptionData}
    (published : (nodes sender).svsPubSub.subscriptionData index = some item) {h : HandOver ι} :
    h ∈ (handOver nodes (.deliver receiver handle sender index now)).toList ↔
      ∃ subscription, (nodes receiver).svsPubSub.subscriptions.find? handle = some subscription ∧
        subscription.topic <+: item.name ∧ h = ⟨receiver, handle, sender, index⟩ := by
  simp only [handOver, if_neg different, published]
  cases (nodes receiver).svsPubSub.subscriptions.find? handle with
  | none => simp
  | some subscription =>
    by_cases matched : subscription.topic <+: item.name <;> simp [matched]

namespace Accounted
variable {edge : String} {nodes : ι → IceFlow μ} {handed : List (HandOver ι)}

/-- One node goes on, and what is newly handed to it is what its callback is called with. -/
theorem update (accounted : Accounted edge nodes handed) {j : ι} {op : Op μ}
    {items : List SubscriptionData}
    (continues : Continues edge (fun handle => ∃ h ∈ handed, h.receiver = j ∧ h.handle = handle)
      (nodes j) op items) (new : List (HandOver ι))
    (fresh : ∀ h ∈ new, h.receiver ≠ h.sender ∧
      h.handle ∈ (nodes h.receiver).svsPubSub.subscriptions.issued ∧ ∃ item,
        (nodes h.sender).svsPubSub.subscriptionData h.index = some item ∧
          ∀ subscription, (h.handle, subscription) ∈ (Function.update nodes j
            (op.perform (nodes j)) h.receiver).subscriptionsOf edge →
              subscription.topic <+: item.name)
    (given : ∀ i, new.filterMap (itemFor edge (Function.update nodes j (op.perform (nodes j))) i) =
      if i = j then items else []) :
    Accounted edge (Function.update nodes j (op.perform (nodes j))) (handed ++ new) := by
  have wf := accounted.wellFormed
  have table (h : HandOver ι) (member : h ∈ handed) (subscription : Subscription) :
      (h.handle, subscription) ∈
          (Function.update nodes j (op.perform (nodes j)) h.receiver).subscriptionsOf edge ↔
        (h.handle, subscription) ∈ (nodes h.receiver).subscriptionsOf edge := by
    by_cases here : h.receiver = j
    · rw [here, Function.update_self]
      exact continues.subscriptions h.handle ⟨h, member, here, rfl⟩ subscription
    · rw [Function.update_of_ne here]
  have grown (i : ι) (handle : Handle)
      (old : handle ∈ (nodes i).svsPubSub.subscriptions.issued) :
      handle ∈
        (Function.update nodes j (op.perform (nodes j)) i).svsPubSub.subscriptions.issued := by
    by_cases here : i = j
    · subst here
      rw [Function.update_self]
      exact continues.issued handle old
    · rwa [Function.update_of_ne here]
  constructor
  case wellFormed =>
    intro i
    by_cases here : i = j
    · subst here
      rw [Function.update_self]
      exact wellFormed_perform (wf i) op
    · rw [Function.update_of_ne here]
      exact wf i
  case callback =>
    intro i
    by_cases here : i = j
    · subst here
      rw [Function.update_self]
      exact continues.callback
    · rw [Function.update_of_ne here]
      exact accounted.callback i
  case issued =>
    intro h member
    rcases List.mem_append.mp member with old | added
    · exact grown _ _ (accounted.issued h old)
    · exact grown _ _ (fresh h added).2.1
  case matched =>
    intro h member
    rcases List.mem_append.mp member with old | added
    · obtain ⟨different, item, found, matched⟩ := accounted.matched h old
      exact ⟨different, item, data_update wf j op found,
        fun subscription live => matched subscription ((table h old subscription).mp live)⟩
    · obtain ⟨different, _, item, found, matched⟩ := fresh h added
      exact ⟨different, item, data_update wf j op found, matched⟩
  case invoked =>
    intro i
    have same : handed.filterMap (itemFor edge (Function.update nodes j (op.perform (nodes j))) i) =
        handed.filterMap (itemFor edge nodes i) := by
      apply List.filterMap_congr
      intro h member
      obtain ⟨_, item, found, _⟩ := accounted.matched h member
      unfold itemFor
      rw [found, data_update wf j op found]
      by_cases here : h.receiver = i
      · subst here
        have goes : goesTo edge (Function.update nodes j (op.perform (nodes j)) h.receiver)
            h.handle = goesTo edge (nodes h.receiver) h.handle := by
          rw [Bool.eq_iff_iff, goesTo_iff, goesTo_iff]
          exact exists_congr (table h member)
        rw [goes]
      · simp [here]
    rw [List.filterMap_append, same, given i, ← accounted.invoked i]
    by_cases here : i = j
    · subst here
      rw [Function.update_self, continues.invoked, if_pos rfl]
    · rw [Function.update_of_ne here, if_neg here, List.append_nil]

theorem unused (accounted : Accounted edge nodes handed) {h : HandOver ι} (member : h ∈ handed)
    (nothing : (nodes h.receiver).invokedItems edge = []) (subscription : Subscription) :
    (h.handle, subscription) ∉ (nodes h.receiver).subscriptionsOf edge := by
  intro live
  obtain ⟨_, item, found, _⟩ := accounted.matched h member
  have given : itemFor edge nodes h.receiver h = some item := by
    rw [itemFor, if_pos ⟨rfl, goesTo_iff.mpr ⟨subscription, live⟩⟩, found]
  have listed := List.mem_filterMap.mpr ⟨h, member, given⟩
  rw [← accounted.invoked, nothing] at listed
  cases listed

theorem call (accounted : Accounted edge nodes handed) {j : ι} {c : Call μ}
    (settled : Settled edge nodes (.call j c)) :
    Accounted edge (step nodes (.call j c)) handed := by
  have wf := accounted.wellFormed j
  have quiet : ((Op.call c).perform (nodes j)).invokedItems edge =
      (nodes j).invokedItems edge ++ [] := by
    rw [List.append_nil]
    exact invokedItems_call wf c edge
  have continues : Continues edge (fun handle => ∃ h ∈ handed, h.receiver = j ∧ h.handle = handle)
      (nodes j) (.call c) [] := by
    cases effect_perform wf (.call c) with
    | framed frame unknown => exact .of_frame wf frame (accounted.callback j) quiet
    | queries now called =>
      cases called
      exact absurd settled id
    | repartitions e requested consumer added called found returned done =>
      cases called
      have issued : ∀ handle ∈ (nodes j).svsPubSub.subscriptions.issued, handle ∈
          ((Op.call (.repartitionConsumer e requested)).perform
            (nodes j)).svsPubSub.subscriptions.issued := by
        intro handle old
        rw [done.issued]
        exact List.mem_append_right _ old
      by_cases here : e = edge
      · subst here
        obtain ⟨registered, nothing⟩ := settled rfl
        refine ⟨?_, issued, fun _ => callbackOf_kept wf _ registered, quiet⟩
        rintro handle ⟨h, member, rfl, rfl⟩ subscription
        -- The handles are new, so nothing was handed to them.
        refine iff_of_false (fun live => ?_) (accounted.unused member nothing subscription)
        rw [done.subscriptionsOf_same] at live
        exact done.fresh _ (List.of_mem_zip live).1 (accounted.issued h member)
      · have same := done.subscriptionsOf_other (Ne.symm here)
        refine ⟨by simp [same], issued, ?_, quiet⟩
        rw [same]
        exact fun some => callbackOf_kept wf _ (accounted.callback j some)
  have updated := accounted.update continues [] (by simp) (by simp)
  rwa [List.append_nil] at updated

theorem deliver (accounted : Accounted edge nodes handed) (receiver : ι) (handle : Handle)
    (sender : ι) (index : Nat) (now : Int) :
    Accounted edge (step nodes (.deliver receiver handle sender index now))
      (handed ++ (handOver nodes (.deliver receiver handle sender index now)).toList) := by
  have wf := accounted.wellFormed
  have idle (nothing : operation nodes (.deliver receiver handle sender index now) = none)
      (none : handOver nodes (.deliver receiver handle sender index now) = none) :
      Accounted edge (step nodes (.deliver receiver handle sender index now))
        (handed ++ (handOver nodes (.deliver receiver handle sender index now)).toList) := by
    rw [none, Option.toList_none, List.append_nil]
    simpa only [step, nothing] using accounted
  by_cases same : receiver = sender
  · exact idle (by simp [operation, same]) (by simp [handOver, same])
  cases published : (nodes sender).svsPubSub.subscriptionData index with
  | none => exact idle (by simp [operation, same, published]) (by simp [handOver, same, published])
  | some item =>
    have operated : operation nodes (.deliver receiver handle sender index now) =
        some (receiver, .deliver handle item now) := by simp [operation, same, published]
    have frame : Frame (nodes receiver) ((Op.deliver handle item now).perform (nodes receiver)) :=
      (nodes receiver).frame_deliver handle item now
    have table (e : String) : ((Op.deliver handle item now).perform
        (nodes receiver)).subscriptionsOf e = (nodes receiver).subscriptionsOf e := by
      rw [subscriptionsOf, frame.subscriptions, subscriptionsOf]
    rw [step_of_operation operated]
    apply accounted.update (.of_frame (wf receiver) frame (accounted.callback receiver)
      (invokedItems_deliver (wf receiver) (accounted.callback receiver) handle item now))
    · intro h member
      obtain ⟨subscription, found, matched, rfl⟩ := (handOver_eq same published).mp member
      refine ⟨same, Registration.Registry.entries_issued _ _
        (Registration.Registry.mem_of_find? found), item, published, ?_⟩
      intro other live
      rw [Function.update_self, table] at live
      rw [Registration.Registry.entry_unique (List.mem_of_mem_filter live)
        (Registration.Registry.mem_of_find? found)]
      exact matched
    · intro i
      cases made : handOver nodes (.deliver receiver handle sender index now) with
      | none =>
        have missed : (nodes receiver).hits edge handle item = false := by
          by_contra hit
          obtain ⟨subscription, live, matched⟩ := hits_iff.mp (Bool.eq_true_of_not_eq_false hit)
          have found := Registration.Registry.find?_of_mem (List.mem_of_mem_filter live)
          have member : ⟨receiver, handle, sender, index⟩ ∈ (handOver nodes
              (.deliver receiver handle sender index now)).toList :=
            (handOver_eq same published).mpr ⟨subscription, found, matched, rfl⟩
          rw [made] at member
          cases member
        simp [missed]
      | some h =>
        obtain ⟨subscription, found, matched, rfl⟩ :=
          (handOver_eq same published (h := h)).mp (Option.mem_toList.mpr made)
        have hit : (nodes receiver).hits edge handle item =
            goesTo edge (nodes receiver) handle := by
          rw [Bool.eq_iff_iff, hits_iff, goesTo_iff]
          apply exists_congr
          intro other
          refine and_iff_left_of_imp (fun live => ?_)
          rw [Registration.Registry.entry_unique (List.mem_of_mem_filter live)
            (Registration.Registry.mem_of_find? found)]
          exact matched
        rw [hit, Option.toList_some, List.filterMap_cons, List.filterMap_nil]
        unfold itemFor
        by_cases here : i = receiver
        · subst here
          rw [Function.update_self, goesTo, table, data_update wf i _ published]
          simp only [goesTo, true_and, if_true]
          split <;> simp_all
        · simp [here, Ne.symm here]

theorem step (accounted : Accounted edge nodes handed) {action : Action ι μ}
    (settled : Settled edge nodes action) :
    Accounted edge (Network.step nodes action) (handed ++ (handOver nodes action).toList) := by
  cases action with
  | call j c =>
    have called := accounted.call settled
    simpa [handOver] using called
  | deliver receiver handle sender index now =>
    exact accounted.deliver receiver handle sender index now

end Accounted

theorem run_accounted {start : ι → IceFlow μ} (constructed : ∀ i, (start i).Constructed)
    {edge : String} {actions : List (Action ι μ)}
    (settled : ∀ x ∈ Transition.steps step start actions, Settled edge x.1 x.2) :
    Accounted edge (run start actions) (handOvers start actions) := by
  induction actions using List.reverseRecOn with
  | nil =>
    refine ⟨fun i => (constructed i).wellFormed, fun i some => ?_,
      by simp [handOvers, Transition.steps], by simp [handOvers, Transition.steps], fun i => ?_⟩
    · obtain ⟨dagParser, nodeName, environment, built⟩ := constructed i
      refine absurd ?_ some
      change (start i).subscriptionsOf edge = []
      rw [subscriptionsOf, List.filter_eq_nil_iff]
      intro entry member
      rw [(construct_fresh built).backchannels entry member]
      simp
    · obtain ⟨dagParser, nodeName, environment, built⟩ := constructed i
      change (start i).invokedItems edge = []
      rw [invokedItems, (construct_fresh built).history]
      rfl
  | append_singleton actions action ih =>
    rw [Transition.steps_append] at settled
    rw [run_concat, handOvers_concat]
    exact (ih (fun x member => settled x (List.mem_append_left _ member))).step
      (settled (run start actions, action) (List.mem_append_right _ (by simp [Transition.steps])))

/-- Calls of one node: the consumer of an edge is repartitioned at most once, after its
callback was registered, and the statistics of consumers are not queried. -/
def Prepared (edge : String) (calls : List (Call μ)) : Prop :=
  ∀ before c after, calls = before ++ c :: after →
    match c with
    | .repartitionConsumer e _ => e = edge →
      (∃ call ∈ before, ∃ callback, (Op.call call).registers = some (edge, callback)) ∧
        ∀ call ∈ before, (Op.call call).repartitionsConsumer edge = false
    | .getConsumerStats _ => False
    | _ => True

theorem prepared_of_pushes (edge : String) {calls : List (Call μ)}
    (pushes : ∀ c ∈ calls, ∃ e payload, c = .pushData e payload) : Prepared edge calls := by
  rintro before c after rfl
  obtain ⟨e, payload, rfl⟩ := pushes c (by simp)
  trivial

theorem prepared_of_registered (edge : String) {registration : Call μ} {e : String}
    {callback : ConsumerCallback μ} {partitions : List UInt32}
    (registers : (Op.call registration).registers = some (e, callback)) :
    Prepared edge [registration, .repartitionConsumer e partitions] := by
  intro before c after split
  cases before with
  | nil =>
    cases split
    cases registration <;> simp_all [Op.registers]
  | cons first rest =>
    obtain ⟨rfl, split⟩ := List.cons.inj split
    cases rest with
    | nil =>
      cases split
      rintro rfl
      refine ⟨⟨registration, List.mem_cons_self, callback, registers⟩, ?_⟩
      intro call member
      rw [List.mem_singleton.mp member]
      cases registration <;> simp_all [Op.registers, Op.repartitionsConsumer]
    | cons second rest =>
      have lengths := congrArg List.length split
      simp at lengths

/-- Whatever the nodes receive between their calls, prepared consumers are settled. -/
theorem settled_of_prepared {start : ι → IceFlow μ} (constructed : ∀ i, (start i).Constructed)
    {edge : String} {actions : List (Action ι μ)}
    (prepared : ∀ i, Prepared edge (callsOf i actions))
    (known : ∀ i partitions, .repartitionConsumer edge partitions ∈ callsOf i actions →
      edge ∈ (start i).iceflowConsumers) :
    ∀ x ∈ Transition.steps step start actions, Settled edge x.1 x.2 := by
  rintro ⟨nodes, action⟩ member
  obtain ⟨first, rest, split, rfl⟩ := Transition.mem_steps.mp member
  cases action with
  | deliver receiver handle sender index now => trivial
  | call j c =>
    have calls : callsOf j actions = callsOf j first ++ c :: callsOf j rest := by
      rw [split, callsOf, List.filterMap_append, List.filterMap_cons]
      simp [callsOf]
    have condition := prepared j _ _ _ calls
    cases c with
    | repartitionConsumer e partitions =>
      rintro rfl
      obtain ⟨⟨call, made, callback, registers⟩, others⟩ := condition rfl
      have listed : .repartitionConsumer e partitions ∈ callsOf j actions := by
        rw [calls]
        exact List.mem_append_right _ List.mem_cons_self
      have performed := called_operationsOf start first j
      change (run start first j).callbackOf e ≠ none ∧ (run start first j).invokedItems e = []
      rw [run_node]
      constructor
      · rw [← performed] at made
        obtain ⟨op, inside, called⟩ := List.mem_filterMap.mp made
        cases op with
        | deliver handle item now => cases called
        | call c =>
          cases called
          exact (constructed j).registered (known j partitions listed) inside registers
      · refine ((constructed j).unserved (fun op inside => ?_)).2
        cases op with
        | deliver handle item now => rfl
        | call c =>
          apply others
          rw [← performed]
          exact List.mem_filterMap.mpr ⟨_, inside, rfl⟩
    | getConsumerStats now => exact condition
    | _ => trivial

/-- A run that is followed action by action: what each node does, and what is handed over. -/
structure Follows (start : ι → IceFlow μ) (actions : List (Action ι μ)) (ops : ι → List (Op μ))
    (handed : List (HandOver ι)) : Prop where
  ops : ∀ i, operationsOf start actions i = ops i
  handed : handOvers start actions = handed

namespace Follows
variable {start : ι → IceFlow μ} {actions : List (Action ι μ)} {ops : ι → List (Op μ)}
  {handed : List (HandOver ι)}

theorem node (follows : Follows start actions ops handed) (i : ι) :
    run start actions i = (start i).run (ops i) := by
  rw [run_node, follows.ops]

theorem calls (start : ι → IceFlow μ) (calls : List (ι × Call μ)) :
    Follows start (calls.map (fun x => .call x.1 x.2))
      (fun i => calls.filterMap (fun x => if x.1 = i then some (.call x.2) else none)) [] := by
  induction calls using List.reverseRecOn with
  | nil => exact ⟨fun _ => rfl, rfl⟩
  | append_singleton calls x ih =>
    rw [List.map_append]
    constructor
    · intro i
      change operationsOf start (_ ++ [Action.call x.1 x.2]) i = _
      rw [operationsOf_concat, ih.ops, List.filterMap_append]
      by_cases here : x.1 = i <;> simp [operation, here]
    · change handOvers start (_ ++ [Action.call x.1 x.2]) = _
      rw [handOvers_concat, ih.handed]
      rfl

theorem deliver (follows : Follows start actions ops handed) (h : HandOver ι)
    (different : h.receiver ≠ h.sender) (item : SubscriptionData)
    (published : ((start h.sender).run (ops h.sender)).svsPubSub.subscriptionData h.index =
      some item)
    (matched : (((start h.receiver).run (ops h.receiver)).svsPubSub.subscriptions.find?
      h.handle).any (fun subscription => decide (subscription.topic <+: item.name)) = true)
    (now : Int) :
    Follows start (actions ++ [.deliver h.receiver h.handle h.sender h.index now])
      (Function.update ops h.receiver (ops h.receiver ++ [.deliver h.handle item now]))
      (handed ++ [h]) := by
  rw [← follows.node] at published matched
  obtain ⟨subscription, live, matched⟩ := (Option.any_eq_true _ _).mp matched
  have matched := of_decide_eq_true matched
  constructor
  · intro i
    rw [operationsOf_concat, follows.ops]
    by_cases here : i = h.receiver
    · subst here
      simp [operation, different, published]
    · simp [operation, different, published, here, Ne.symm here]
  · rw [handOvers_concat, follows.handed]
    simp [handOver, different, published, live, matched]

end Follows

end Network
end Iceflow
