import Iceflow.Platform

/-! The shared `SVSPubSub` instance of a node: its subscription table, its own
publications in the order of their sequence numbers 1, 2, 3, ..., and the data
store that keeps what it published. Consumers and producers hold a weak pointer
to the instance; `expired` says that the pointer can no longer be locked. -/
namespace Iceflow
open Registration
variable [Platform]

/-- What a subscription callback receives. -/
structure SubscriptionData where
  name : Name
  producerPrefix : Name
  seqNo : UInt64
  data : Bytes
  deriving DecidableEq

/-- The callback of a subscription: `subscribeCallBack` of the consumer of an
edge, or a backchannel handler with the prefixes it captured. -/
inductive Receiver where
  | consumer (upstreamEdgeName : String)
  | backchannel (nodePrefix syncPrefix : String)
  deriving DecidableEq

def Receiver.isConsumer : Receiver → Bool
  | .consumer _ => true
  | .backchannel _ _ => false

structure Subscription where
  topic : Name
  receiver : Receiver
  deriving DecidableEq

/-- Which call published: no code reads it. -/
inductive Source where
  | pushed (downstreamEdgeName : String)
  | acknowledged (upstreamEdgeName : String) (item : SubscriptionData)
  deriving DecidableEq

structure Publication where
  name : Name
  data : Bytes
  source : Source
  deriving DecidableEq

/-- Stored packets by name. -/
abbrev DataStore := List (Name × Bytes)

def DataStore.erase (store : DataStore) (dataName : Name) : DataStore :=
  List.filter (fun packet => packet.1 ≠ dataName) store

structure SVSPubSub where
  expired : Bool
  syncPrefix : Name
  nodePrefix : Name
  subscriptions : Registry Handle Subscription
  publications : List Publication
  dataStore : DataStore

namespace SVSPubSub

def construct (syncPrefix nodePrefix : Name) : SVSPubSub :=
  ⟨false, syncPrefix, nodePrefix, .empty, [], []⟩

/-- `std::weak_ptr::lock` -/
def lock (svs : SVSPubSub) : Option SVSPubSub := if svs.expired then none else some svs

def subscribe (svs : SVSPubSub) (topic : Name) (receiver : Receiver) : SVSPubSub × Handle :=
  let (subscriptions, handle) := svs.subscriptions.register Platform.allocator ⟨topic, receiver⟩
  ({ svs with subscriptions }, handle)

def unsubscribe (svs : SVSPubSub) (handle : Handle) : SVSPubSub :=
  { svs with subscriptions := svs.subscriptions.unregister handle }

/-- The name under which the node with this prefix stores a publication. -/
def dataName (nodePrefix syncPrefix : Name) (seqNo : UInt64) : Name :=
  nodePrefix ++ syncPrefix ++ [Platform.fromNumber seqNo]

def nextSeqNo (svs : SVSPubSub) : UInt64 := UInt64.ofNat (svs.publications.length + 1)

/-- `publish` with the sequence number it returns. Producers pass the prefix that
the instance was constructed with, which is also the default. -/
def publish (svs : SVSPubSub) (publication : Publication) : SVSPubSub × UInt64 :=
  ({ svs with
      publications := svs.publications ++ [publication]
      dataStore := svs.dataStore ++
        [(dataName svs.nodePrefix svs.syncPrefix svs.nextSeqNo, publication.data)] },
   svs.nextSeqNo)

/-- What subscriptions of other nodes receive of the publication at an index. -/
def subscriptionData (svs : SVSPubSub) (index : Nat) : Option SubscriptionData :=
  svs.publications[index]?.map (fun publication =>
    ⟨publication.name, svs.nodePrefix, UInt64.ofNat (index + 1), publication.data⟩)

@[simp] theorem publications_publish (svs : SVSPubSub) (publication : Publication) :
    (svs.publish publication).1.publications = svs.publications ++ [publication] := rfl

theorem lock_of_live {svs : SVSPubSub} (live : svs.expired = false) : svs.lock = some svs := by
  simp [lock, live]

end SVSPubSub
end Iceflow
