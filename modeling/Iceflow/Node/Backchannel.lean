import Iceflow.Node.Store
import Iceflow.WordCount

/-! What a sequence of backchannel payloads does to the data store of a node, whatever
the store holds and whoever sent them: it removes what the payloads name, once and for
all, so their order and repetitions do not matter. -/
namespace Iceflow

section
variable [Platform] {μ : Type}

/-- The integer that a payload parses to; `none` for every other payload. -/
def payloadInteger (data : Bytes) : Option Int :=
  match Platform.parseJson data with
  | some (.integer i) => some i
  | some (.unsigned n) => some n.toNat
  | _ => none

theorem carriedSeqNo_eq (data : Bytes) :
    carriedSeqNo data = (payloadInteger data).map UInt64.ofInt := by
  rw [carriedSeqNo, payloadInteger]
  cases Platform.parseJson data with
  | none => rfl
  | some json => cases json <;> rfl

def acknowledgedName (nodePrefix syncPrefix : Name) (data : Bytes) : Option Name :=
  (payloadInteger data).map (fun m => SVSPubSub.dataName nodePrefix syncPrefix (UInt64.ofInt m))

/-- The packets that no payload names. -/
def DataStore.without (store : DataStore) (nodePrefix syncPrefix : Name) (payloads : List Bytes) :
    DataStore :=
  List.filter (fun packet => packet.1 ∉ payloads.filterMap (acknowledgedName nodePrefix syncPrefix))
    store

theorem DataStore.without_nil (store : DataStore) (nodePrefix syncPrefix : Name) :
    store.without nodePrefix syncPrefix [] = store := by
  simp [DataStore.without]

theorem DataStore.without_cons (store : DataStore) (nodePrefix syncPrefix : Name) (data : Bytes)
    (rest : List Bytes) :
    store.without nodePrefix syncPrefix (data :: rest) =
      (store.without nodePrefix syncPrefix [data]).without nodePrefix syncPrefix rest := by
  simp only [DataStore.without, List.filter_filter]
  apply List.filter_congr
  intro packet _
  cases named : acknowledgedName nodePrefix syncPrefix data with
  | none => simp [named]
  | some name => simp [named, not_or, Bool.and_comm]

theorem DataStore.without_congr {first second : List Bytes}
    (same : ∀ data, data ∈ first ↔ data ∈ second) (store : DataStore)
    (nodePrefix syncPrefix : Name) :
    store.without nodePrefix syncPrefix first = store.without nodePrefix syncPrefix second := by
  apply List.filter_congr
  intro packet _
  simp only [List.mem_filterMap, same]

theorem DataStore.mem_without {store : DataStore} {nodePrefix syncPrefix : Name}
    {payloads : List Bytes} {packet : Name × Bytes} (stored : packet ∈ store)
    (other : ∀ m, packet.1 ≠ SVSPubSub.dataName nodePrefix syncPrefix m) :
    packet ∈ store.without nodePrefix syncPrefix payloads := by
  rw [DataStore.without, List.mem_filter, decide_eq_true_eq]
  refine ⟨stored, fun named => ?_⟩
  obtain ⟨data, _, name⟩ := List.mem_filterMap.mp named
  obtain ⟨m, _, same⟩ := Option.map_eq_some_iff.mp name
  exact other _ same.symm

theorem IceflowProducer.handleBackchannel_without {nodePrefix syncPrefix : String}
    {nodeName syncName : Name} (nodeParsed : Platform.nameOfUri nodePrefix = some nodeName)
    (syncParsed : Platform.nameOfUri syncPrefix = some syncName) (data : Bytes)
    (store : DataStore) :
    handleBackchannel nodePrefix syncPrefix data store =
      store.without nodeName syncName [data] := by
  rw [handleBackchannel_eq nodeParsed syncParsed, carriedSeqNo_eq, DataStore.without]
  cases found : payloadInteger data with
  | none => simp [acknowledgedName, found]
  | some m => simp [acknowledgedName, found, DataStore.erase]

namespace IceFlow

def withStore (n : IceFlow μ) (dataStore : DataStore) : IceFlow μ :=
  { n with svsPubSub := { n.svsPubSub with dataStore } }

/-- An item that a live backchannel subscription receives. -/
structure Acknowledging (n : IceFlow μ) where
  handle : Handle
  item : SubscriptionData
  now : Int
  handed : n.ToBackchannel handle item.name

/-- Handling a payload returns and changes nothing but the store. -/
theorem Acknowledging.deliver {n : IceFlow μ} (wf : WellFormed n) (a : n.Acknowledging)
    (store : DataStore) :
    (n.withStore store).deliver a.handle a.item a.now = (.ok (), n.withStore
      (store.without n.svsPubSub.nodePrefix n.svsPubSub.syncPrefix [a.item.data])) := by
  obtain ⟨subscription, found, matched, receiver⟩ := a.handed
  cases handler : subscription.receiver with
  | consumer edge => simp [handler, Receiver.isConsumer] at receiver
  | backchannel nodePrefix syncPrefix =>
    obtain ⟨rfl, rfl⟩ := wf.captured _ (Registration.Registry.mem_of_find? found) _ _ handler
    rw [← IceflowProducer.handleBackchannel_without wf.nodePrefix_parses wf.syncPrefix_parses]
    simp only [IceFlow.deliver, withStore, found, if_pos matched, handler]

def Acknowledging.op {n : IceFlow μ} (a : n.Acknowledging) : Op μ :=
  .deliver a.handle a.item a.now

theorem run_acknowledging {n : IceFlow μ} (wf : WellFormed n) (acks : List n.Acknowledging)
    (store : DataStore) :
    (n.withStore store).run (acks.map Acknowledging.op) = n.withStore
      (store.without n.svsPubSub.nodePrefix n.svsPubSub.syncPrefix
        (acks.map (fun a => a.item.data))) := by
  induction acks generalizing store with
  | nil =>
    rw [List.map_nil, List.map_nil, DataStore.without_nil]
    rfl
  | cons a rest ih =>
    have first : a.op.perform (n.withStore store) = n.withStore
        (store.without n.svsPubSub.nodePrefix n.svsPubSub.syncPrefix [a.item.data]) := by
      rw [Acknowledging.op, Op.perform, a.deliver wf store]
    have split := store.without_cons n.svsPubSub.nodePrefix n.svsPubSub.syncPrefix a.item.data
      (rest.map (fun a => a.item.data))
    rw [List.map_cons, List.map_cons, split, IceFlow.run, Transition.run_cons, first]
    exact ih _

/-- The effect of any sequence of backchannel payloads on any content of the store. -/
structure Insensitive (n : IceFlow μ) (store : DataStore) (acks : List n.Acknowledging) : Prop where
  /-- Exactly what the payloads name is removed, and the rest of the node stays. -/
  removes : (n.withStore store).run (acks.map Acknowledging.op) = n.withStore
    (store.without n.svsPubSub.nodePrefix n.svsPubSub.syncPrefix
      (acks.map (fun a => a.item.data)))
  /-- No exception escapes. -/
  returns : ∀ first a rest, acks = first ++ a :: rest →
    (((n.withStore store).run (first.map Acknowledging.op)).deliver a.handle a.item a.now).1 =
      .ok ()
  untouched : ∀ packet ∈ store,
    (∀ m, packet.1 ≠ SVSPubSub.dataName n.svsPubSub.nodePrefix n.svsPubSub.syncPrefix m) →
      packet ∈ ((n.withStore store).run (acks.map Acknowledging.op)).svsPubSub.dataStore
  /-- Only the set of payloads matters. -/
  set : ∀ others : List n.Acknowledging,
    (∀ data, data ∈ acks.map (fun a => a.item.data) ↔ data ∈ others.map (fun a => a.item.data)) →
      (n.withStore store).run (others.map Acknowledging.op) =
        (n.withStore store).run (acks.map Acknowledging.op)

theorem Constructed.insensitive {n₀ : IceFlow μ} (constructed : n₀.Constructed) (ops : List (Op μ))
    (store : DataStore) (acks : List (n₀.run ops).Acknowledging) :
    Insensitive (n₀.run ops) store acks := by
  have wf := constructed.run_wellFormed ops
  constructor
  case removes => exact run_acknowledging wf acks store
  case returns =>
    intro first a rest _
    rw [run_acknowledging wf, a.deliver wf]
  case untouched =>
    intro packet stored other
    rw [run_acknowledging wf]
    exact DataStore.mem_without stored other
  case set =>
    intro others same
    rw [run_acknowledging wf, run_acknowledging wf, DataStore.without_congr same]

end IceFlow
end

section
open scoped Iceflow.Reference
open IceFlow WordCount

def oneLine : List (Op Unit) := [.call (.pushData "t2l" [104])]

def backchannelTopic : Name := Reference.components ["WordCount", "t2l"] ++ [Platform.backchannel]

theorem oneLine_subscription :
    (firstSource.run oneLine).svsPubSub.subscriptions.find? (Reference.handle 1) =
      some ⟨backchannelTopic, .backchannel "/node-WordCount/1" "WordCount"⟩ := by decide

def backchannelItem (data : Bytes) : SubscriptionData :=
  ⟨backchannelTopic, Reference.components ["node-WordCount", "3"], 1, data⟩

theorem handed_backchannelItem (data : Bytes) :
    (firstSource.run oneLine).ToBackchannel (Reference.handle 1) (backchannelItem data).name :=
  ⟨_, oneLine_subscription, List.prefix_refl _, rfl⟩

def acknowledging (data : Bytes) : (firstSource.run oneLine).Acknowledging :=
  ⟨Reference.handle 1, backchannelItem data, 0, handed_backchannelItem data⟩

/-- The number 1 twice, and bytes that do not parse, on the store with the one line. -/
theorem insensitive_oneLine : Insensitive (firstSource.run oneLine)
    (firstSource.run oneLine).svsPubSub.dataStore
    [acknowledging (Platform.dumpUnsigned 1), acknowledging [120],
      acknowledging (Platform.dumpUnsigned 1)] :=
  constructed_firstSource.insensitive oneLine _ _

end
end Iceflow
