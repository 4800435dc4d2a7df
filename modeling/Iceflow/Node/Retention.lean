import Iceflow.Node.Backchannel
import Iceflow.Node.Items
import Mathlib.Logic.Relation

/-! What a node stores after any run: the packets of its publications, without those whose
number a backchannel was handed after they were published. -/
namespace Iceflow

section
variable [Platform] {μ : Type}

namespace SVSPubSub

/-- From one state to another by publishing alone. -/
def Publishes : SVSPubSub → SVSPubSub → Prop :=
  Relation.ReflTransGen (fun svs svs' => ∃ publication, svs' = (svs.publish publication).1)

theorem Publishes.publish (svs : SVSPubSub) (publication : Publication) :
    Publishes svs (svs.publish publication).1 := .single ⟨publication, rfl⟩

def forget (svs : SVSPubSub) (seqNo : UInt64) : SVSPubSub :=
  { svs with dataStore := svs.dataStore.erase (dataName svs.nodePrefix svs.syncPrefix seqNo) }

def packet (svs : SVSPubSub) (published : Publication × Nat) : Name × Bytes :=
  (dataName svs.nodePrefix svs.syncPrefix (UInt64.ofNat (published.2 + 1)), published.1.data)

theorem packet_congr {svs svs' : SVSPubSub} (nodePrefix : svs'.nodePrefix = svs.nodePrefix)
    (syncPrefix : svs'.syncPrefix = svs.syncPrefix) : svs'.packet = svs.packet := by
  funext published
  rw [packet, packet, nodePrefix, syncPrefix]

theorem packet_named (svs : SVSPubSub) (published : Publication × Nat) (seqNo : UInt64) :
    (svs.packet published).1 = dataName svs.nodePrefix svs.syncPrefix seqNo ↔
      seqNo = UInt64.ofNat (published.2 + 1) :=
  (dataName_injective _ _).eq_iff.trans eq_comm

/-- Every publication that was added is stored, and nothing was erased. -/
structure Grows (svs svs' : SVSPubSub) : Prop where
  nodePrefix : svs'.nodePrefix = svs.nodePrefix
  syncPrefix : svs'.syncPrefix = svs.syncPrefix
  grown : ∃ new, svs'.publications = svs.publications ++ new ∧
    svs'.dataStore = svs.dataStore ++ (new.zipIdx svs.publications.length).map svs.packet

theorem Grows.of_same {svs svs' : SVSPubSub} (nodePrefix : svs'.nodePrefix = svs.nodePrefix)
    (syncPrefix : svs'.syncPrefix = svs.syncPrefix)
    (publications : svs'.publications = svs.publications)
    (dataStore : svs'.dataStore = svs.dataStore) : Grows svs svs' :=
  ⟨nodePrefix, syncPrefix, [], by simp [publications], by simp [dataStore]⟩

theorem Grows.publish {svs svs' : SVSPubSub} (grows : Grows svs svs')
    (publication : Publication) : Grows svs (svs'.publish publication).1 := by
  obtain ⟨new, publications, dataStore⟩ := grows.grown
  refine ⟨grows.nodePrefix, grows.syncPrefix, new ++ [publication], ?_, ?_⟩
  · rw [publications_publish, publications, List.append_assoc]
  · have added : (svs'.publish publication).1.dataStore =
        svs'.dataStore ++ [svs'.packet (publication, svs'.publications.length)] := rfl
    rw [added, packet_congr grows.nodePrefix grows.syncPrefix, dataStore, publications,
      List.zipIdx_append, List.map_append, List.length_append, List.append_assoc]
    rfl

theorem Publishes.grows {svs svs' : SVSPubSub} (publishes : Publishes svs svs') :
    Grows svs svs' := by
  induction publishes with
  | refl => exact .of_same rfl rfl rfl rfl
  | tail _ last ih =>
    obtain ⟨publication, rfl⟩ := last
    exact ih.publish publication

end SVSPubSub

namespace IceFlow
open SVSPubSub

theorem publishes_pushData (n : IceFlow μ) (edge : String) (payload : Bytes) :
    Publishes n.svsPubSub (n.pushData edge payload).2.svsPubSub := by
  unfold pushData
  split
  · exact .refl
  · dsimp only [IceflowProducer.pushData]
    split
    · exact .refl
    · rename_i valid locked
      obtain rfl := lock_eq_some locked
      split
      · exact .refl
      · exact .refl
      · exact .publish _ _

theorem publishes_runScript (n : IceFlow μ) (script : Script μ) :
    Publishes n.svsPubSub (n.runScript script).2.svsPubSub := by
  induction script generalizing n with
  | done memory => exact .refl
  | throws memory what => exact .refl
  | push edge data memory next ih =>
    have pushed := publishes_pushData n edge data
    unfold runScript
    split <;> rename_i after same <;> rw [same] at pushed
    · exact pushed
    · exact pushed.trans (ih after)

theorem publishes_acknowledge (n : IceFlow μ) (consumer : IceflowConsumer μ) (edge : String)
    (item : SubscriptionData) :
    Publishes n.svsPubSub (n.acknowledge consumer edge item).2.svsPubSub := by
  unfold acknowledge
  split
  · exact .refl
  · rename_i valid locked
    obtain rfl := lock_eq_some locked
    split
    · exact .refl
    · exact .publish _ _

theorem publishes_subscribeCallBack (n : IceFlow μ) (edge : String) (item : SubscriptionData)
    (now : Int) : Publishes n.svsPubSub (n.subscribeCallBack edge item now).2.svsPubSub := by
  unfold subscribeCallBack
  split
  · exact .refl
  · rename_i consumer _
    split
    · exact .refl
    · rename_i callback _
      have ran := publishes_runScript (n.log (.invoked edge item)) (callback n.memory item.data)
      split <;> rename_i after same <;> rw [same] at ran
      · exact ran
      · have acknowledged := publishes_acknowledge
          ((after.log (.completed edge item)).saveTimestamp edge now) consumer edge item
        rw [svsPubSub_saveTimestamp] at acknowledged
        exact ran.trans acknowledged

def erases (n : IceFlow μ) : Op μ → Option UInt64
  | .call _ => none
  | .deliver handle item _ =>
    match n.svsPubSub.subscriptions.find? handle with
    | none => none
    | some subscription =>
      if subscription.topic <+: item.name ∧ subscription.receiver.isConsumer = false then
        carriedSeqNo item.data
      else none

theorem deliver_handler {n : IceFlow μ} (wf : WellFormed n) {handle : Handle}
    {item : SubscriptionData} {subscription : Subscription} {nodePrefix syncPrefix : String}
    (found : n.svsPubSub.subscriptions.find? handle = some subscription)
    (matched : subscription.topic <+: item.name)
    (receiver : subscription.receiver = .backchannel nodePrefix syncPrefix) (now : Int) :
    (n.deliver handle item now).2.svsPubSub =
      (carriedSeqNo item.data).elim n.svsPubSub n.svsPubSub.forget := by
  obtain ⟨rfl, rfl⟩ := wf.captured _ (Registration.Registry.mem_of_find? found) _ _ receiver
  simp only [deliver, found, if_pos matched, receiver]
  rw [IceflowProducer.handleBackchannel_eq wf.nodePrefix_parses wf.syncPrefix_parses]
  cases carriedSeqNo item.data <;> rfl

theorem grows_call {n : IceFlow μ} (wf : WellFormed n) (c : Call μ) :
    Grows n.svsPubSub (c.perform n).svsPubSub := by
  have same {svs' : SVSPubSub} (unchanged : svs' = n.svsPubSub) : Grows n.svsPubSub svs' :=
    unchanged ▸ .of_same rfl rfl rfl rfl
  cases c with
  | pushData edge payload => exact (publishes_pushData n edge payload).grows
  | repartitionProducer edge count =>
    apply same
    simp only [Call.perform, repartitionProducer]
    split
    · rfl
    · split <;> rfl
  | registerConsumerCallback edge callback | registerProsumerCallback edge callback =>
    apply same
    simp only [Call.perform, registerProsumerCallback, registerConsumerCallback]
    split <;> rfl
  | getProducerStats now => exact same rfl
  | repartitionConsumer edge partitions =>
    have unframed : (Op.call (.repartitionConsumer edge partitions) : Op μ).framed = false := rfl
    obtain ⟨subscriptions, consumers, performed, _⟩ := perform_unframed wf unframed
    rw [Op.perform] at performed
    rw [performed]
    exact .of_same rfl rfl rfl rfl
  | getConsumerStats now =>
    have unframed : (Op.call (.getConsumerStats now) : Op μ).framed = false := rfl
    obtain ⟨subscriptions, consumers, performed, _⟩ := perform_unframed wf unframed
    rw [Op.perform] at performed
    rw [performed]
    exact .of_same rfl rfl rfl rfl

/-- What a backchannel is handed erases the number it carries; everything else publishes at
most. -/
theorem store_perform {n : IceFlow μ} (wf : WellFormed n) (op : Op μ) :
    (∃ seqNo, n.erases op = some seqNo ∧
      (op.perform n).svsPubSub = n.svsPubSub.forget seqNo) ∨
    (n.erases op = none ∧ Grows n.svsPubSub (op.perform n).svsPubSub) := by
  cases op with
  | call c => exact .inr ⟨rfl, grows_call wf c⟩
  | deliver handle item now =>
    rw [erases, Op.perform]
    cases found : n.svsPubSub.subscriptions.find? handle with
    | none =>
      refine .inr ⟨rfl, ?_⟩
      simp only [deliver, found]
      exact .of_same rfl rfl rfl rfl
    | some subscription =>
      by_cases matched : subscription.topic <+: item.name
      · cases receiver : subscription.receiver with
        | consumer edge =>
          refine .inr ⟨by simp [receiver, Receiver.isConsumer], ?_⟩
          simp only [deliver, found, if_pos matched, receiver]
          exact (publishes_subscribeCallBack n edge item now).grows
        | backchannel nodePrefix syncPrefix =>
          have toHandler : subscription.topic <+: item.name ∧
              subscription.receiver.isConsumer = false := ⟨matched, by rw [receiver]; rfl⟩
          rw [deliver_handler wf found matched receiver now]
          simp only [if_pos toHandler]
          cases carriedSeqNo item.data with
          | none => exact .inr ⟨rfl, .of_same rfl rfl rfl rfl⟩
          | some seqNo => exact .inl ⟨seqNo, rfl, rfl⟩
      · refine .inr ⟨by simp [matched], ?_⟩
        simp only [deliver, found, if_neg matched]
        exact .of_same rfl rfl rfl rfl

/-- The publication at an index was there when a backchannel was handed its number. -/
def acknowledgedSince (n₀ : IceFlow μ) (ops : List (Op μ)) (index : Nat) : Bool :=
  (Transition.steps Op.perform n₀ ops).any (fun x =>
    index < x.1.svsPubSub.publications.length ∧ x.1.erases x.2 = some (UInt64.ofNat (index + 1)))

theorem acknowledgedSince_concat (n₀ : IceFlow μ) (ops : List (Op μ)) (op : Op μ) (index : Nat) :
    n₀.acknowledgedSince (ops ++ [op]) index = (n₀.acknowledgedSince ops index ||
      decide (index < (n₀.run ops).svsPubSub.publications.length ∧
        (n₀.run ops).erases op = some (UInt64.ofNat (index + 1)))) := by
  rw [acknowledgedSince, Transition.steps_append, List.any_append, acknowledgedSince]
  simp [Transition.steps]

theorem Constructed.acknowledgedSince_published {n₀ : IceFlow μ} (constructed : n₀.Constructed)
    {ops : List (Op μ)} {index : Nat} (acknowledged : n₀.acknowledgedSince ops index = true) :
    index < (n₀.run ops).svsPubSub.publications.length := by
  obtain ⟨⟨n, op⟩, taken, both⟩ := List.any_eq_true.mp acknowledged
  obtain ⟨first, rest, rfl, rfl⟩ := Transition.mem_steps.mp taken
  have inside := (of_decide_eq_true both).1
  have grown := publications_prefix_run (constructed.run_wellFormed first) (op :: rest)
  rw [IceFlow.run, Transition.run_append]
  exact lt_of_lt_of_le inside grown.length_le

/-- In every reachable state the store has the packets of the publication log, in order,
without those that were acknowledged after they were published. -/
theorem Constructed.run_retained {n₀ : IceFlow μ} (constructed : n₀.Constructed)
    (ops : List (Op μ)) : (n₀.run ops).svsPubSub.dataStore =
      ((n₀.run ops).svsPubSub.publications.zipIdx.filter
        (fun published => !n₀.acknowledgedSince ops published.2)).map
          (n₀.run ops).svsPubSub.packet := by
  induction ops using List.reverseRecOn with
  | nil =>
    obtain ⟨dagParser, nodeName, environment, built⟩ := constructed
    have fresh := construct_fresh built
    change n₀.svsPubSub.dataStore = _
    rw [fresh.dataStore]
    change [] = (n₀.svsPubSub.publications.zipIdx.filter _).map _
    rw [fresh.publications]
    rfl
  | append_singleton ops op ih =>
    rw [run_concat]
    obtain ⟨seqNo, erased, forgotten⟩ | ⟨erased, grows⟩ :=
      store_perform (constructed.run_wellFormed ops) op
    · rw [forgotten]
      change DataStore.erase (n₀.run ops).svsPubSub.dataStore _ = _
      rw [ih, DataStore.erase, List.filter_map, List.filter_filter]
      change _ = ((n₀.run ops).svsPubSub.publications.zipIdx.filter _).map
        (n₀.run ops).svsPubSub.packet
      congr 1
      apply List.filter_congr
      rintro ⟨publication, index⟩ member
      have inside : index < (n₀.run ops).svsPubSub.publications.length := by
        simpa using List.snd_lt_of_mem_zipIdx member
      rw [acknowledgedSince_concat, erased]
      rw [Bool.eq_iff_iff]
      simp [packet_named, inside, and_comm]
    · obtain ⟨nodePrefix, syncPrefix, new, publications, dataStore⟩ := grows
      have same (index : Nat) :
          n₀.acknowledgedSince (ops ++ [op]) index = n₀.acknowledgedSince ops index := by
        rw [acknowledgedSince_concat, erased]
        simp
      have fresh : (new.zipIdx (n₀.run ops).svsPubSub.publications.length).filter
          (fun published => !n₀.acknowledgedSince ops published.2) =
            new.zipIdx (n₀.run ops).svsPubSub.publications.length := by
        rw [List.filter_eq_self]
        rintro ⟨publication, index⟩ member
        have later := List.le_snd_of_mem_zipIdx member
        rw [Bool.not_eq_true', Bool.eq_false_iff]
        exact fun acknowledged =>
          absurd (constructed.acknowledgedSince_published acknowledged) (Nat.not_lt.mpr later)
      simp only [same]
      rw [dataStore, publications, packet_congr nodePrefix syncPrefix, List.zipIdx_append,
        List.filter_append, List.map_append, ih, Nat.zero_add, fresh]

end IceFlow
end

section
open scoped Iceflow.Reference
open IceFlow WordCount

/-- The number 2 is handed over before there is a second line, the number 1 afterwards. -/
def twoLines : List (Op Unit) :=
  [.call (.pushData "t2l" [104]),
    .deliver (Reference.handle 1) (backchannelItem (Platform.dumpUnsigned 2)) 0,
    .call (.pushData "t2l" [105]),
    .deliver (Reference.handle 1) (backchannelItem (Platform.dumpUnsigned 1)) 0]

/-- The second line is still stored. -/
theorem run_retained_twoLines :
    (firstSource.run twoLines).svsPubSub.dataStore.map Prod.snd = [[105]] := by
  rw [constructed_firstSource.run_retained twoLines]
  decide

end
end Iceflow
