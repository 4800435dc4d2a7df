import Iceflow.Node.Repartitioning

/-! The data store of a node. What the node publishes is stored until a handler of a
backchannel reads its sequence number from a payload; nothing else removes packets. -/
namespace Iceflow
variable [Platform] {μ : Type}

/-- The sequence number that a backchannel handler reads from a payload. -/
def carriedSeqNo (data : Bytes) : Option UInt64 :=
  match Platform.parseJson data with
  | some sequenceNumberJson =>
    if sequenceNumberJson.isNumberInteger then sequenceNumberJson.getUInt64.toOption else none
  | none => none

theorem carriedSeqNo_dumpUnsigned (n : UInt64) :
    carriedSeqNo (Platform.dumpUnsigned n) = some n := by
  rw [carriedSeqNo, Platform.parseJson_dumpUnsigned]
  have same : UInt64.ofInt (n.toNat : Int) = n := by
    have small := n.toNat_lt
    have value : ((n.toNat : Int) % 2 ^ 64).toNat = n.toNat := by omega
    rw [UInt64.ofInt, value, UInt64.ofNat_toNat]
  simp [Json.isNumberInteger, Json.getUInt64, Json.toInt?, Except.toOption, same]

theorem IceflowProducer.handleBackchannel_eq {nodePrefix syncPrefix : String}
    {nodeName syncName : Name} (nodeParsed : Platform.nameOfUri nodePrefix = some nodeName)
    (syncParsed : Platform.nameOfUri syncPrefix = some syncName) (data : Bytes)
    (store : DataStore) :
    handleBackchannel nodePrefix syncPrefix data store =
      match carriedSeqNo data with
      | some seqNo => store.erase (SVSPubSub.dataName nodeName syncName seqNo)
      | none => store := by
  unfold handleBackchannel carriedSeqNo
  cases Platform.parseJson data with
  | none => rfl
  | some json =>
    simp only [name_ok_iff.mpr nodeParsed, name_ok_iff.mpr syncParsed]
    by_cases number : json.isNumberInteger = true
    · simp only [if_pos number]
      cases json.getUInt64 <;> rfl
    · simp only [if_neg number]

namespace SVSPubSub

def Stores (svs : SVSPubSub) (seqNo : UInt64) : Prop :=
  ∃ packet ∈ svs.dataStore, packet.1 = dataName svs.nodePrefix svs.syncPrefix seqNo

theorem dataName_injective (nodePrefix syncPrefix : Name) :
    Function.Injective (dataName nodePrefix syncPrefix) := by
  intro m n same
  rw [dataName, dataName, List.append_cancel_left_eq, List.singleton_inj] at same
  exact Platform.fromNumber_injective same

/-- The instance published something, and erased nothing. -/
structure Extends (svs svs' : SVSPubSub) : Prop where
  publications : svs.publications <+: svs'.publications
  kept : ∀ seqNo, svs.Stores seqNo → svs'.Stores seqNo
  stored : ∀ index, svs.publications.length ≤ index → index < svs'.publications.length →
    svs'.Stores (UInt64.ofNat (index + 1))

namespace Extends

theorem refl (svs : SVSPubSub) : Extends svs svs :=
  ⟨List.prefix_refl _, fun _ held => held, fun _ old new => absurd old (Nat.not_le.mpr new)⟩

theorem trans {a b c : SVSPubSub} (first : Extends a b) (second : Extends b c) : Extends a c := by
  refine ⟨first.publications.trans second.publications,
    fun seqNo held => second.kept seqNo (first.kept seqNo held), ?_⟩
  intro index old new
  by_cases between : index < b.publications.length
  · exact second.kept _ (first.stored index old between)
  · exact second.stored index (Nat.not_lt.mp between) new

theorem publish (svs : SVSPubSub) (publication : Publication) :
    Extends svs (svs.publish publication).1 := by
  refine ⟨List.prefix_append _ _, ?_, ?_⟩
  · rintro seqNo ⟨packet, stored, named⟩
    exact ⟨packet, List.mem_append_left _ stored, named⟩
  · intro index old new
    rw [publications_publish, List.length_append, List.length_singleton] at new
    obtain rfl : index = svs.publications.length := by omega
    exact ⟨_, List.mem_append_right _ (List.mem_singleton.mpr rfl), rfl⟩

end Extends
end SVSPubSub

namespace IceFlow
open SVSPubSub

theorem extends_pushData (n : IceFlow μ) (edge : String) (payload : Bytes) :
    Extends n.svsPubSub (n.pushData edge payload).2.svsPubSub := by
  unfold pushData
  split
  · exact .refl _
  · rename_i producer _
    dsimp only [IceflowProducer.pushData]
    split
    · exact .refl _
    · rename_i valid locked
      obtain rfl := lock_eq_some locked
      split
      · exact .refl _
      · exact .refl _
      · exact .publish _ _

theorem extends_runScript (n : IceFlow μ) (script : Script μ) :
    Extends n.svsPubSub (n.runScript script).2.svsPubSub := by
  induction script generalizing n with
  | done memory => exact .refl _
  | throws memory what => exact .refl _
  | push edge data memory next ih =>
    have pushed := extends_pushData n edge data
    unfold runScript
    split
    · rename_i e after same
      rw [same] at pushed
      exact pushed
    · rename_i after same
      rw [same] at pushed
      exact pushed.trans (ih after)

theorem extends_acknowledge (n : IceFlow μ) (consumer : IceflowConsumer μ) (edge : String)
    (subData : SubscriptionData) :
    Extends n.svsPubSub (n.acknowledge consumer edge subData).2.svsPubSub := by
  unfold acknowledge
  split
  · exact .refl _
  · rename_i valid locked
    obtain rfl := lock_eq_some locked
    split
    · exact .refl _
    · exact .publish _ _

theorem svsPubSub_saveTimestamp (n : IceFlow μ) (edge : String) (timestamp : Int) :
    (n.saveTimestamp edge timestamp).svsPubSub = n.svsPubSub := by
  unfold saveTimestamp
  split <;> rfl

theorem extends_subscribeCallBack (n : IceFlow μ) (edge : String) (subData : SubscriptionData)
    (now : Int) : Extends n.svsPubSub (n.subscribeCallBack edge subData now).2.svsPubSub := by
  unfold subscribeCallBack
  split
  · exact .refl _
  · split
    · exact .refl _
    · rename_i callback _
      have ran := extends_runScript (n.log (.invoked edge subData)) (callback n.memory subData.data)
      split
      · rename_i e after same
        rw [same] at ran
        exact ran
      · rename_i consumer _ _ _ _ after same
        rw [same] at ran
        have acknowledged := extends_acknowledge
          ((after.log (.completed edge subData)).saveTimestamp edge now) consumer edge subData
        rw [svsPubSub_saveTimestamp] at acknowledged
        exact ran.trans acknowledged

/-- A live subscription of a backchannel that receives what has this name. -/
def ToBackchannel (n : IceFlow μ) (handle : Handle) (name : Name) : Prop :=
  ∃ subscription, n.svsPubSub.subscriptions.find? handle = some subscription ∧
    subscription.topic <+: name ∧ subscription.receiver.isConsumer = false

theorem extends_perform {n : IceFlow μ} (wf : WellFormed n) (op : Op μ)
    (elsewhere : ∀ handle item now, op = .deliver handle item now →
      ¬ n.ToBackchannel handle item.name) :
    Extends n.svsPubSub (op.perform n).svsPubSub := by
  cases op with
  | deliver handle item now =>
    have missed := elsewhere handle item now rfl
    simp only [Op.perform, deliver]
    split
    · exact .refl _
    · rename_i subscription found
      split
      · rename_i matched
        cases receiver : subscription.receiver with
        | consumer edge => exact extends_subscribeCallBack n edge item now
        | backchannel nodePrefix syncPrefix =>
          exact absurd ⟨subscription, found, matched, by rw [receiver]; rfl⟩ missed
      · exact .refl _
  | call c =>
    cases c with
    | pushData edge payload => exact extends_pushData n edge payload
    | repartitionProducer edge count =>
      simp only [Op.perform, Call.perform, repartitionProducer]
      split
      · exact .refl _
      · split <;> exact .refl _
    | registerConsumerCallback edge callback =>
      simp only [Op.perform, Call.perform, registerConsumerCallback]
      split <;> exact .refl _
    | registerProsumerCallback edge callback =>
      simp only [Op.perform, Call.perform, registerProsumerCallback, registerConsumerCallback]
      split <;> exact .refl _
    | getProducerStats now => exact .refl _
    | repartitionConsumer edge partitions =>
      have unframed : (Op.call (.repartitionConsumer edge partitions) : Op μ).framed = false := rfl
      obtain ⟨subscriptions, consumers, performed, _⟩ := perform_unframed wf unframed
      rw [performed]
      exact { Extends.refl n.svsPubSub with }
    | getConsumerStats now =>
      have unframed : (Op.call (.getConsumerStats now) : Op μ).framed = false := rfl
      obtain ⟨subscriptions, consumers, performed, _⟩ := perform_unframed wf unframed
      rw [performed]
      exact { Extends.refl n.svsPubSub with }

/-- What is handed to a backchannel erases the number it carries, and nothing else. -/
theorem deliver_backchannel {n : IceFlow μ} (wf : WellFormed n) {handle : Handle}
    {item : SubscriptionData} (handed : n.ToBackchannel handle item.name) (now : Int) :
    (n.deliver handle item now).2.svsPubSub.publications = n.svsPubSub.publications ∧
      ∀ seqNo, (n.deliver handle item now).2.svsPubSub.Stores seqNo ↔
        n.svsPubSub.Stores seqNo ∧ carriedSeqNo item.data ≠ some seqNo := by
  obtain ⟨subscription, found, matched, receiver⟩ := handed
  cases handler : subscription.receiver with
  | consumer edge => simp [handler, Receiver.isConsumer] at receiver
  | backchannel nodePrefix syncPrefix =>
    obtain ⟨rfl, rfl⟩ := wf.captured _ (Registration.Registry.mem_of_find? found) _ _ handler
    have performed : (n.deliver handle item now).2 = { n with svsPubSub := { n.svsPubSub with
        dataStore := IceflowProducer.handleBackchannel n.nodePrefix n.syncPrefix item.data
          n.svsPubSub.dataStore } } := by
      simp only [deliver, found, if_pos matched, handler]
    rw [performed,
      IceflowProducer.handleBackchannel_eq wf.nodePrefix_parses wf.syncPrefix_parses]
    refine ⟨rfl, fun seqNo => ?_⟩
    cases carried : carriedSeqNo item.data with
    | none => simp [Stores]
    | some number =>
      simp only [Stores, DataStore.erase, List.mem_filter, decide_eq_true_eq, ne_eq,
        Option.some.injEq]
      constructor
      · rintro ⟨packet, ⟨stored, other⟩, named⟩
        exact ⟨⟨packet, stored, named⟩, fun same => other (by rw [named, same])⟩
      · rintro ⟨⟨packet, stored, named⟩, other⟩
        refine ⟨packet, ⟨stored, fun same => other ?_⟩, named⟩
        exact dataName_injective _ _ (same.symm.trans named)

end IceFlow
end Iceflow
