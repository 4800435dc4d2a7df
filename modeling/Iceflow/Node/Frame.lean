import Iceflow.Node

/-! What operations leave alone. Only `repartitionConsumer` and `getConsumerStats`
touch subscriptions and the handles consumers hold; everything else is framed by
one relation between the states before and after. -/
namespace Iceflow

variable [Platform] {μ : Type}

/-- Everything of the instance but its publications and its data store. -/
def SVSPubSub.table (svs : SVSPubSub) :
    Bool × Name × Name × Registration.Registry Handle Subscription :=
  (svs.expired, svs.syncPrefix, svs.nodePrefix, svs.subscriptions)

/-- The fields of a producer that no call changes. -/
def IceflowProducer.identity (producer : IceflowProducer) :
    String × String × String × UInt32 × String :=
  (producer.pubTopic, producer.nodePrefix, producer.syncPrefix, producer.numberOfPartitions,
    producer.downstreamEdgeName)

def IceflowConsumer.identity (consumer : IceflowConsumer μ) : String × String × List Handle :=
  (consumer.subTopic, consumer.upstreamEdgeName, consumer.subscriptionHandles)

namespace IceFlow

structure Frame (n n' : IceFlow μ) : Prop where
  nodePrefix : n'.nodePrefix = n.nodePrefix
  syncPrefix : n'.syncPrefix = n.syncPrefix
  table : n'.svsPubSub.table = n.svsPubSub.table
  consumers : ∀ e, (n'.iceflowConsumers.lookup e).map IceflowConsumer.identity =
    (n.iceflowConsumers.lookup e).map IceflowConsumer.identity
  producers : ∀ e, (n'.iceflowProducers.lookup e).map IceflowProducer.identity =
    (n.iceflowProducers.lookup e).map IceflowProducer.identity

namespace Frame

theorem refl (n : IceFlow μ) : Frame n n := ⟨rfl, rfl, rfl, fun _ => rfl, fun _ => rfl⟩

theorem trans {a b c : IceFlow μ} (first : Frame a b) (second : Frame b c) : Frame a c :=
  ⟨second.nodePrefix.trans first.nodePrefix, second.syncPrefix.trans first.syncPrefix,
    second.table.trans first.table,
    fun e => (second.consumers e).trans (first.consumers e),
    fun e => (second.producers e).trans (first.producers e)⟩

theorem expired {n n' : IceFlow μ} (frame : Frame n n') :
    n'.svsPubSub.expired = n.svsPubSub.expired := congrArg Prod.fst frame.table

theorem svsSyncPrefix {n n' : IceFlow μ} (frame : Frame n n') :
    n'.svsPubSub.syncPrefix = n.svsPubSub.syncPrefix := congrArg (·.2.1) frame.table

theorem svsNodePrefix {n n' : IceFlow μ} (frame : Frame n n') :
    n'.svsPubSub.nodePrefix = n.svsPubSub.nodePrefix := congrArg (·.2.2.1) frame.table

theorem subscriptions {n n' : IceFlow μ} (frame : Frame n n') :
    n'.svsPubSub.subscriptions = n.svsPubSub.subscriptions := congrArg (·.2.2.2) frame.table

end Frame

theorem frame_producers (n : IceFlow μ) {edge : String} {old new : IceflowProducer}
    (found : n.iceflowProducers.lookup edge = some old) (same : new.identity = old.identity) :
    Frame n { n with iceflowProducers := n.iceflowProducers.insert edge new } :=
  { Frame.refl n with producers := StringMap.map_lookup_insert _ found same }

theorem frame_consumers (n : IceFlow μ) {edge : String} {old new : IceflowConsumer μ}
    (found : n.iceflowConsumers.lookup edge = some old) (same : new.identity = old.identity) :
    Frame n { n with iceflowConsumers := n.iceflowConsumers.insert edge new } :=
  { Frame.refl n with consumers := StringMap.map_lookup_insert _ found same }

theorem identity_pushData (producer : IceflowProducer) (svs : SVSPubSub) (data : Bytes) :
    (producer.pushData svs data).2.1.identity = producer.identity := by
  unfold IceflowProducer.pushData
  split
  · rfl
  · dsimp only [IceflowProducer.getNextPartitionNumber]
    split <;> rfl

theorem lock_eq_some {svs valid : SVSPubSub} (locked : svs.lock = some valid) : valid = svs := by
  unfold SVSPubSub.lock at locked
  split at locked
  · contradiction
  · exact (Option.some.inj locked).symm

theorem table_pushData (producer : IceflowProducer) (svs : SVSPubSub) (data : Bytes) :
    (producer.pushData svs data).2.2.table = svs.table := by
  unfold IceflowProducer.pushData
  split
  · rfl
  · rename_i valid locked
    obtain rfl := lock_eq_some locked
    dsimp only
    split <;> rfl

theorem frame_pushData (n : IceFlow μ) (edge : String) (payload : Bytes) :
    Frame n (n.pushData edge payload).2 := by
  unfold pushData
  split
  · exact Frame.refl n
  · rename_i producer found
    exact { frame_producers n found (identity_pushData producer n.svsPubSub payload) with
      table := table_pushData producer n.svsPubSub payload }

theorem frame_repartitionProducer (n : IceFlow μ) (edge : String) (count : UInt64) :
    Frame n (n.repartitionProducer edge count).2 := by
  unfold repartitionProducer
  split
  · exact Frame.refl n
  · rename_i producer found
    split
    · exact Frame.refl n
    · rename_i changed set
      apply frame_producers n found
      obtain ⟨partitions, -, rfl⟩ := IceflowProducer.setTopicPartitions_ok.mp set
      rfl

theorem frame_registerConsumerCallback (n : IceFlow μ) (edge : String)
    (callback : ConsumerCallback μ) : Frame n (n.registerConsumerCallback edge callback).2 := by
  unfold registerConsumerCallback
  split
  · exact Frame.refl n
  · rename_i consumer found
    exact frame_consumers n found rfl

theorem frame_runScript (n : IceFlow μ) (script : Script μ) : Frame n (n.runScript script).2 := by
  induction script generalizing n with
  | done memory => exact { Frame.refl n with }
  | throws memory what => exact { Frame.refl n with }
  | push edge data memory next ih =>
    have pushed := frame_pushData n edge data
    unfold runScript
    split
    · rename_i e after same
      rw [same] at pushed
      exact pushed.trans { Frame.refl after with }
    · rename_i after same
      rw [same] at pushed
      exact pushed.trans (ih after)

theorem frame_log (n : IceFlow μ) (event : Event) : Frame n (n.log event) := { Frame.refl n with }

theorem frame_saveTimestamp (n : IceFlow μ) (edge : String) (timestamp : Int) :
    Frame n (n.saveTimestamp edge timestamp) := by
  unfold saveTimestamp
  split
  · exact Frame.refl n
  · rename_i consumer found
    have saved : (consumer.saveTimestamp timestamp).identity = consumer.identity := rfl
    exact (frame_consumers n found saved).trans (frame_log _ _)

theorem frame_acknowledge (n : IceFlow μ) (consumer : IceflowConsumer μ) (edge : String)
    (subData : SubscriptionData) : Frame n (n.acknowledge consumer edge subData).2 := by
  unfold acknowledge
  split
  · exact Frame.refl n
  · rename_i valid locked
    obtain rfl := lock_eq_some locked
    split
    · exact Frame.refl n
    · exact { Frame.refl n with table := rfl }

theorem frame_subscribeCallBack (n : IceFlow μ) (edge : String) (subData : SubscriptionData)
    (now : Int) : Frame n (n.subscribeCallBack edge subData now).2 := by
  unfold subscribeCallBack
  split
  · exact Frame.refl n
  · split
    · exact Frame.refl n
    · rename_i callback _
      have ran := (frame_log n (.invoked edge subData)).trans
        (frame_runScript _ (callback n.memory subData.data))
      split
      · rename_i e after same
        rw [same] at ran
        exact ran
      · rename_i after same
        rw [same] at ran
        exact ((ran.trans (frame_log _ _)).trans (frame_saveTimestamp _ _ _)).trans
          (frame_acknowledge _ _ _ _)

theorem frame_deliver (n : IceFlow μ) (handle : Handle) (subData : SubscriptionData) (now : Int) :
    Frame n (n.deliver handle subData now).2 := by
  unfold deliver
  split
  · exact Frame.refl n
  · split
    · split
      · exact frame_subscribeCallBack n _ subData now
      · exact { Frame.refl n with }
    · exact Frame.refl n

end IceFlow

/-- Operations that keep every subscription and every handle. -/
def Op.framed : Op μ → Bool
  | .call (.repartitionConsumer _ _) | .call (.getConsumerStats _) => false
  | _ => true

theorem Op.frame (n : IceFlow μ) {op : Op μ} (framed : op.framed = true) :
    IceFlow.Frame n (op.perform n) := by
  cases op with
  | deliver handle subData now => exact n.frame_deliver handle subData now
  | call c =>
    cases c with
    | repartitionConsumer edge partitions => contradiction
    | getConsumerStats now => contradiction
    | repartitionProducer edge count => exact n.frame_repartitionProducer edge count
    | pushData edge payload => exact n.frame_pushData edge payload
    | registerConsumerCallback edge callback => exact n.frame_registerConsumerCallback edge callback
    | registerProsumerCallback edge callback =>
      exact n.frame_registerConsumerCallback edge
        (fun memory data => callback memory data Script.push)
    | getProducerStats now => exact .refl n

end Iceflow
