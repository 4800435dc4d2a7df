import Iceflow.Node.Deliveries

/-! When a delivery calls the callback of a consumer: exactly if it goes to a live
subscription of that consumer and matches. -/
namespace Iceflow.IceFlow
variable [Platform] {μ : Type}

theorem consumers_pushData (n : IceFlow μ) (edge : String) (payload : Bytes) :
    (n.pushData edge payload).2.iceflowConsumers = n.iceflowConsumers := by
  unfold pushData
  split <;> rfl

theorem consumers_runScript (n : IceFlow μ) (script : Script μ) :
    (n.runScript script).2.iceflowConsumers = n.iceflowConsumers := by
  induction script generalizing n with
  | done memory => rfl
  | throws memory what => rfl
  | push edge data memory next ih =>
    have pushed := consumers_pushData n edge data
    unfold runScript
    split
    · rename_i e after same
      rw [same] at pushed
      exact pushed
    · rename_i after same
      rw [same] at pushed
      exact (ih after).trans pushed

theorem callbacks_saveTimestamp (n : IceFlow μ) (edge : String) (timestamp : Int) (e : String) :
    ((n.saveTimestamp edge timestamp).iceflowConsumers.lookup e).map
        IceflowConsumer.consumerCallback =
      (n.iceflowConsumers.lookup e).map IceflowConsumer.consumerCallback := by
  unfold saveTimestamp
  split
  · rfl
  · rename_i consumer found
    have kept : (consumer.saveTimestamp timestamp).consumerCallback = consumer.consumerCallback :=
      rfl
    exact StringMap.map_lookup_insert _ found kept e

theorem consumers_acknowledge (n : IceFlow μ) (consumer : IceflowConsumer μ) (edge : String)
    (item : SubscriptionData) :
    (n.acknowledge consumer edge item).2.iceflowConsumers = n.iceflowConsumers := by
  unfold acknowledge
  split
  · rfl
  · split <;> rfl

theorem callbacks_deliver (n : IceFlow μ) (handle : Handle) (item : SubscriptionData) (now : Int)
    (e : String) :
    ((n.deliver handle item now).2.iceflowConsumers.lookup e).map
        IceflowConsumer.consumerCallback =
      (n.iceflowConsumers.lookup e).map IceflowConsumer.consumerCallback := by
  by_cases reached : ∃ edge callback, n.Reaches handle item edge callback
  · obtain ⟨edge, callback, reaches⟩ := reached
    obtain ⟨consumer, held, registered⟩ := reaches.registered
    rw [reaches.deliver_eq now]
    simp only [subscribeCallBack, held, registered]
    have ran := consumers_runScript (n.log (.invoked edge item)) (callback n.memory item.data)
    generalize (n.log (.invoked edge item)).runScript (callback n.memory item.data) = after at ran
    obtain ⟨returned, n'⟩ := after
    have same : n'.iceflowConsumers = n.iceflowConsumers := ran
    cases returned with
    | error error => rw [same]
    | ok value =>
      rw [consumers_acknowledge, callbacks_saveTimestamp]
      exact congrArg (fun consumers =>
        (AList.lookup e consumers).map IceflowConsumer.consumerCallback) same
  · obtain ⟨dataStore, unchanged, _⟩ := deliver_unreached
      (fun edge callback reaches => reached ⟨edge, callback, reaches⟩) now
    rw [unchanged]

structure Ready (n : IceFlow μ) (edge : String) : Prop where
  wellFormed : WellFormed n
  registered : ∃ consumer callback, n.iceflowConsumers.lookup edge = some consumer ∧
    consumer.consumerCallback = some callback

theorem Ready.deliver {n : IceFlow μ} {edge : String} (ready : n.Ready edge) (handle : Handle)
    (item : SubscriptionData) (now : Int) : (n.deliver handle item now).2.Ready edge := by
  refine ⟨(n.frame_deliver handle item now).wellFormed ready.wellFormed, ?_⟩
  obtain ⟨consumer, callback, held, registered⟩ := ready.registered
  have kept := callbacks_deliver n handle item now edge
  rw [held, Option.map_some, Option.map_eq_some_iff] at kept
  obtain ⟨consumer', held', same⟩ := kept
  exact ⟨consumer', callback, held', same.trans registered⟩

/-- A subscription of the consumer of an edge is live under a handle and matches. -/
def hits (n : IceFlow μ) (edge : String) (handle : Handle) (item : SubscriptionData) : Bool :=
  match n.svsPubSub.subscriptions.find? handle with
  | some subscription => subscription.receiver = .consumer edge ∧ subscription.topic <+: item.name
  | none => false

theorem hits_iff {n : IceFlow μ} {edge : String} {handle : Handle} {item : SubscriptionData} :
    n.hits edge handle item = true ↔
      ∃ subscription, n.svsPubSub.subscriptions.find? handle = some subscription ∧
        subscription.topic <+: item.name ∧ subscription.receiver = .consumer edge := by
  rw [hits]
  cases n.svsPubSub.subscriptions.find? handle with
  | none => simp
  | some subscription => simp [and_comm]

theorem Frame.hits {n n' : IceFlow μ} (frame : Frame n n') (edge : String) (handle : Handle)
    (item : SubscriptionData) : n'.hits edge handle item = n.hits edge handle item := by
  rw [IceFlow.hits, frame.subscriptions, IceFlow.hits]

def invokedItem (edge : String) : Event → Option SubscriptionData
  | .invoked e item => if e = edge then some item else none
  | _ => none

/-- The callback of an edge is called once by a delivery that hits, and by no other. -/
theorem Ready.invokes {n : IceFlow μ} {edge : String} (ready : n.Ready edge) (handle : Handle)
    (item : SubscriptionData) (now : Int) :
    ∃ events, (n.deliver handle item now).2.history = n.history ++ events ∧
      events.filterMap (invokedItem edge) = if n.hits edge handle item then [item] else [] := by
  by_cases reached : ∃ e callback, n.Reaches handle item e callback
  · obtain ⟨e, callback, reaches⟩ := reached
    obtain ⟨subscription, found, matched, receiver⟩ := reaches.subscribed
    obtain ⟨outputs, acknowledgement, events, handled⟩ := reaches.handled ready.wellFormed now
    refine ⟨events, handled.history, ?_⟩
    have hit : n.hits edge handle item = decide (e = edge) := by
      simp [hits, found, receiver, matched]
    have first : events.filterMap (invokedItem edge) = if e = edge then [item] else [] := by
      by_cases completes : n.Completes (callback n.memory item.data)
      · obtain ⟨_, _, rfl⟩ := handled.completed completes
        by_cases here : e = edge <;> simp [invokedItem, here]
      · obtain ⟨_, _, rfl⟩ := handled.failed completes
        by_cases here : e = edge <;> simp [invokedItem, here]
    rw [first, hit]
    simp
  · have unreached (e : String) (callback : ConsumerCallback μ) :
        ¬ n.Reaches handle item e callback := fun reaches => reached ⟨e, callback, reaches⟩
    obtain ⟨dataStore, unchanged, _⟩ := deliver_unreached unreached now
    refine ⟨[], by rw [unchanged, List.append_nil], ?_⟩
    have missed : n.hits edge handle item = false := by
      by_contra hit
      obtain ⟨consumer, callback, held, registered⟩ := ready.registered
      exact unreached edge callback
        ⟨hits_iff.mp (Bool.eq_true_of_not_eq_false hit), consumer, held, registered⟩
    simp [missed]

end Iceflow.IceFlow
