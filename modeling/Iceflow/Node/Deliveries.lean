import Iceflow.Node.Repartitioning
import Mathlib.Data.List.TakeWhile

/-! What a delivery appends to the publications and the history of a node. The
outputs of a callback come before the acknowledgement, which is published only if
the callback returned. -/
namespace Iceflow
open Registration

namespace Script
variable {μ : Type}

/-- The calls of the producer callback, in order, if none of them throws. -/
def requests : Script μ → List (String × Bytes)
  | .done _ | .throws _ _ => []
  | .push downstreamEdgeName data _ next => (downstreamEdgeName, data) :: next.requests

/-- The program does not throw by itself. -/
def returns : Script μ → Bool
  | .done _ => true
  | .throws _ _ => false
  | .push _ _ _ next => next.returns

end Script

variable [Platform] {μ : Type}

namespace IceFlow

/-- A publication of some partition of the edge that an item was handed to. -/
def Output (n : IceFlow μ) (request : String × Bytes) (publication : Publication) : Prop :=
  (∃ p, partitionName (n.topicOf request.1) p = .ok publication.name) ∧
    publication.data = request.2 ∧ publication.source = .pushed request.1

/-- The acknowledgement of an item by the consumer of an edge. -/
def Acknowledgement (n : IceFlow μ) (edge : String) (item : SubscriptionData)
    (publication : Publication) : Prop :=
  backchannelName (n.topicOf edge) = .ok publication.name ∧
    publication.data = Platform.dumpUnsigned item.seqNo ∧
    publication.source = .acknowledged edge item

theorem Frame.output {n n' : IceFlow μ} (frame : Frame n n') {request : String × Bytes}
    {publication : Publication} :
    n'.Output request publication ↔ n.Output request publication := by
  rw [Output, Output, frame.topicOf]

theorem pushData_unknown {n : IceFlow μ} {edge : String} (unknown : edge ∉ n.iceflowProducers)
    (payload : Bytes) : n.pushData edge payload = (.error (noProducer edge), n) := by
  rw [pushData, AList.lookup_eq_none.mpr unknown]

def nextPartition (n : IceFlow μ) (edge : String) : Option UInt32 :=
  (n.iceflowProducers.lookup edge).map (fun producer => producer.getNextPartitionNumber.1)

/-- The effect of a push that finds a producer. -/
structure Pushed (n : IceFlow μ) (edge : String) (payload : Bytes) (n' : IceFlow μ)
    (publication : Publication) : Prop where
  publications : n'.svsPubSub.publications = n.svsPubSub.publications ++ [publication]
  drawn : ∃ p, n.nextPartition edge = some p ∧
    partitionName (n.topicOf edge) p = .ok publication.name
  data : publication.data = payload
  source : publication.source = .pushed edge
  history : n'.history = n.history

theorem Pushed.output {n n' : IceFlow μ} {edge : String} {payload : Bytes}
    {publication : Publication} (pushed : Pushed n edge payload n' publication) :
    n.Output (edge, payload) publication := by
  obtain ⟨p, _, named⟩ := pushed.drawn
  exact ⟨⟨p, named⟩, pushed.data, pushed.source⟩

theorem pushData_known {n : IceFlow μ} (wf : WellFormed n) {edge : String}
    (known : edge ∈ n.iceflowProducers) (payload : Bytes) :
    (n.pushData edge payload).1 = .ok () ∧
      ∃ publication, Pushed n edge payload (n.pushData edge payload).2 publication := by
  obtain ⟨producer, found⟩ := StringMap.mem_iff_lookup.mp known
  obtain ⟨pubTopic, nodePrefix, named⟩ := wf.producer_fixed edge producer found
  obtain ⟨topic, parsed⟩ := producer.pubTopic_parses
  have nodeParsed : Platform.nameOfUri producer.nodePrefix = some n.svsPubSub.nodePrefix := by
    rw [nodePrefix, wf.nodePrefix_parses]
  have published := producer.pushData_publishes n.svsPubSub wf.live parsed nodeParsed payload
  simp only [pushData, found, published]
  refine ⟨trivial, _, rfl, ?_, rfl, by rw [named], rfl⟩
  exact ⟨producer.getNextPartitionNumber.1, by simp [nextPartition, found],
    by rw [← pubTopic, partitionName_parsed parsed]⟩

/-- A callback returns if it asks for known edges only and does not throw. -/
def Completes (n : IceFlow μ) (script : Script μ) : Prop :=
  script.returns = true ∧ ∀ request ∈ script.requests, request.1 ∈ n.iceflowProducers

/-- The requests before the first one that throws. -/
def servedRequests (n : IceFlow μ) (script : Script μ) : List (String × Bytes) :=
  script.requests.takeWhile (fun request => request.1 ∈ n.iceflowProducers)

theorem servedRequests_eq {n : IceFlow μ} {script : Script μ} (completes : n.Completes script) :
    n.servedRequests script = script.requests :=
  List.takeWhile_eq_self_iff.mpr (fun request listed => by simpa using completes.2 request listed)

theorem Frame.servedRequests {n n' : IceFlow μ} (frame : Frame n n') (script : Script μ) :
    n'.servedRequests script = n.servedRequests script := by
  rw [IceFlow.servedRequests, IceFlow.servedRequests]
  simp only [frame.mem_producers]

theorem Frame.completes {n n' : IceFlow μ} (frame : Frame n n') {script : Script μ} :
    n'.Completes script ↔ n.Completes script := by
  simp only [Completes, frame.mem_producers]

/-- Running a callback publishes the outputs up to the first request that throws. -/
structure Ran (n : IceFlow μ) (script : Script μ) (after : Except Exception Unit × IceFlow μ)
    (outputs : List Publication) : Prop where
  frame : Frame n after.2
  history : after.2.history = n.history
  publications : after.2.svsPubSub.publications = n.svsPubSub.publications ++ outputs
  outputs : List.Forall₂ n.Output (n.servedRequests script) outputs
  result : after.1 = .ok () ↔ n.Completes script

theorem runScript_ran {n : IceFlow μ} (wf : WellFormed n) (script : Script μ) :
    ∃ outputs, Ran n script (n.runScript script) outputs := by
  have frame := n.frame_runScript script
  induction script generalizing n with
  | done memory =>
    exact ⟨[], frame, rfl, by simp [runScript], .nil,
      by simp [runScript, Completes, Script.returns, Script.requests]⟩
  | throws memory what =>
    exact ⟨[], frame, rfl, by simp [runScript], .nil,
      by simp [runScript, Completes, Script.returns]⟩
  | push edge data memory next ih =>
    by_cases known : edge ∈ n.iceflowProducers
    · obtain ⟨succeeds, publication, pushed⟩ := pushData_known wf known data
      have first := n.frame_pushData edge data
      have continues : n.runScript (.push edge data memory next) =
          (n.pushData edge data).2.runScript next := by
        rw [runScript]
        generalize n.pushData edge data = after at succeeds
        obtain ⟨_, n'⟩ := after
        obtain rfl := succeeds
        rfl
      obtain ⟨outputs, ran⟩ :=
        ih (first.wellFormed wf) ((n.pushData edge data).2.frame_runScript next)
      have served : n.servedRequests (.push edge data memory next) =
          (edge, data) :: n.servedRequests next := by
        rw [servedRequests, Script.requests, List.takeWhile_cons_of_pos (by simpa using known),
          servedRequests]
      refine ⟨publication :: outputs, frame, ?_, ?_, ?_, ?_⟩
      · rw [continues, ran.history, pushed.history]
      · rw [continues, ran.publications, pushed.publications, List.append_assoc,
          List.singleton_append]
      · rw [served]
        refine .cons pushed.output ?_
        rw [← first.servedRequests]
        exact ran.outputs.imp (fun _ _ output => first.output.mp output)
      · rw [continues, ran.result, first.completes]
        simp [Completes, Script.returns, Script.requests, known]
    · have fails : n.runScript (.push edge data memory next) =
          (.error (noProducer edge), { n with memory }) := by
        rw [runScript, pushData_unknown known]
      refine ⟨[], frame, ?_, ?_, ?_, ?_⟩
      · rw [fails]
      · rw [fails, List.append_nil]
      · rw [servedRequests, Script.requests, List.takeWhile_cons_of_neg (by simpa using known)]
        exact .nil
      · rw [fails]
        simp [Completes, Script.requests, known]

/-- Handling an item: outputs, then the acknowledgement if the callback returned. -/
structure Handled (n : IceFlow μ) (edge : String) (item : SubscriptionData) (now : Int)
    (script : Script μ) (after : Except Exception Unit × IceFlow μ)
    (outputs acknowledgement : List Publication) (events : List Event) : Prop where
  publications : after.2.svsPubSub.publications =
    n.svsPubSub.publications ++ (outputs ++ acknowledgement)
  outputs : List.Forall₂ n.Output (n.servedRequests script) outputs
  history : after.2.history = n.history ++ events
  completed : n.Completes script → after.1 = .ok () ∧
    (∃ publication, acknowledgement = [publication] ∧ n.Acknowledgement edge item publication) ∧
    events = [.invoked edge item, .completed edge item, .recorded edge now]
  failed : ¬ n.Completes script → after.1 ≠ .ok () ∧ acknowledgement = [] ∧
    events = [.invoked edge item]

theorem acknowledge_publishes {n : IceFlow μ} (live : n.svsPubSub.expired = false)
    {consumer : IceflowConsumer μ} {topic : Name}
    (parsed : Platform.nameOfUri consumer.subTopic = some topic) (edge : String)
    (item : SubscriptionData) :
    n.acknowledge consumer edge item = (.ok (), { n with
      svsPubSub := (n.svsPubSub.publish ⟨topic ++ [Platform.backchannel],
        Platform.dumpUnsigned item.seqNo, .acknowledged edge item⟩).1 }) := by
  simp only [acknowledge, SVSPubSub.lock_of_live live, backchannelName_parsed parsed]

@[simp] theorem svsPubSub_log (n : IceFlow μ) (event : Event) :
    (n.log event).svsPubSub = n.svsPubSub := rfl

@[simp] theorem history_log (n : IceFlow μ) (event : Event) :
    (n.log event).history = n.history ++ [event] := rfl

theorem saveTimestamp_records {n : IceFlow μ} {edge : String} (known : edge ∈ n.iceflowConsumers)
    (timestamp : Int) :
    (n.saveTimestamp edge timestamp).history = n.history ++ [.recorded edge timestamp] ∧
      (n.saveTimestamp edge timestamp).svsPubSub = n.svsPubSub := by
  obtain ⟨consumer, found⟩ := StringMap.mem_iff_lookup.mp known
  simp [saveTimestamp, found, log]

theorem subscribeCallBack_handled {n : IceFlow μ} (wf : WellFormed n) {edge : String}
    {consumer : IceflowConsumer μ} (found : n.iceflowConsumers.lookup edge = some consumer)
    {consumerCallback : ConsumerCallback μ}
    (registered : consumer.consumerCallback = some consumerCallback) {topic : Name}
    (parsed : Platform.nameOfUri (n.topicOf edge) = some topic) (item : SubscriptionData)
    (now : Int) :
    ∃ outputs acknowledgement events,
      Handled n edge item now (consumerCallback n.memory item.data)
        (n.subscribeCallBack edge item now) outputs acknowledgement events := by
  have invoked := n.frame_log (.invoked edge item)
  obtain ⟨outputs, ran⟩ := runScript_ran (invoked.wellFormed wf)
    (consumerCallback n.memory item.data)
  have framed := invoked.trans ran.frame
  have wf' := framed.wellFormed wf
  have served := ran.outputs
  have result := ran.result
  rw [invoked.servedRequests] at served
  rw [invoked.completes] at result
  replace served := served.imp (fun _ _ output => invoked.output.mp output)
  simp only [subscribeCallBack, found, registered]
  generalize (n.log (.invoked edge item)).runScript (consumerCallback n.memory item.data) = after
    at *
  obtain ⟨returned, n'⟩ := after
  cases returned with
  | error e =>
    have unfinished : ¬ n.Completes (consumerCallback n.memory item.data) := by
      rw [← result]
      simp
    exact ⟨outputs, [], [.invoked edge item], by rw [List.append_nil]; exact ran.publications,
      served, ran.history, fun completes => absurd completes unfinished,
      fun _ => ⟨by simp, rfl, rfl⟩⟩
  | ok value =>
    have completes : n.Completes (consumerCallback n.memory item.data) := result.mp rfl
    have present : edge ∈ (n'.log (.completed edge item)).iceflowConsumers :=
      (framed.mem_consumers edge).mpr (StringMap.mem_of_lookup found)
    obtain ⟨recorded, unchanged⟩ := saveTimestamp_records present now
    have still_live : ((n'.log (.completed edge item)).saveTimestamp edge now).svsPubSub.expired =
        false := by rw [unchanged]; exact wf'.live
    have subTopic_parsed : Platform.nameOfUri consumer.subTopic = some topic := by
      rw [(wf.consumer_fixed edge consumer found).1, parsed]
    dsimp only
    rw [acknowledge_publishes still_live subTopic_parsed]
    refine ⟨outputs, [⟨topic ++ [Platform.backchannel], Platform.dumpUnsigned item.seqNo,
      .acknowledged edge item⟩], [.invoked edge item, .completed edge item, .recorded edge now],
      ?_, served, ?_, fun _ => ⟨rfl, ⟨_, rfl, backchannelName_parsed parsed, rfl, rfl⟩, rfl⟩,
      fun failed => absurd completes failed⟩
    · have published : n'.svsPubSub.publications = n.svsPubSub.publications ++ outputs :=
        ran.publications
      simp only [SVSPubSub.publications_publish, unchanged, svsPubSub_log, published,
        List.append_assoc]
    · have logged : n'.history = n.history ++ [.invoked edge item] := ran.history
      simp [recorded, logged]

structure Reaches (n : IceFlow μ) (handle : Handle) (item : SubscriptionData) (edge : String)
    (consumerCallback : ConsumerCallback μ) : Prop where
  subscribed : ∃ subscription, n.svsPubSub.subscriptions.find? handle = some subscription ∧
    subscription.topic <+: item.name ∧ subscription.receiver = .consumer edge
  registered : ∃ consumer, n.iceflowConsumers.lookup edge = some consumer ∧
    consumer.consumerCallback = some consumerCallback

theorem Reaches.deliver_eq {n : IceFlow μ} {handle : Handle} {item : SubscriptionData}
    {edge : String} {consumerCallback : ConsumerCallback μ}
    (reaches : n.Reaches handle item edge consumerCallback) (now : Int) :
    n.deliver handle item now = n.subscribeCallBack edge item now := by
  obtain ⟨subscription, found, matched, receiver⟩ := reaches.subscribed
  simp only [deliver, found, if_pos matched, receiver]

theorem Reaches.handled {n : IceFlow μ} (wf : WellFormed n) {handle : Handle}
    {item : SubscriptionData} {edge : String} {consumerCallback : ConsumerCallback μ}
    (reaches : n.Reaches handle item edge consumerCallback) (now : Int) :
    ∃ outputs acknowledgement events,
      Handled n edge item now (consumerCallback n.memory item.data) (n.deliver handle item now)
        outputs acknowledgement events := by
  obtain ⟨subscription, found, matched, receiver⟩ := reaches.subscribed
  obtain ⟨consumer, held, registered⟩ := reaches.registered
  obtain ⟨topic, _, parsed, _⟩ :=
    wf.partition_topic _ (Registry.mem_of_find? found) edge receiver
  rw [reaches.deliver_eq now]
  exact subscribeCallBack_handled wf held registered parsed item now

/-- Any other delivery to a consumer changes nothing; one to a backchannel handler
changes the data store alone. -/
theorem deliver_unreached {n : IceFlow μ} {handle : Handle} {item : SubscriptionData}
    (unreached : ∀ edge consumerCallback, ¬ n.Reaches handle item edge consumerCallback)
    (now : Int) :
    ∃ dataStore, n.deliver handle item now =
        (.ok (), { n with svsPubSub := { n.svsPubSub with dataStore } }) ∧
      (∀ subscription edge, n.svsPubSub.subscriptions.find? handle = some subscription →
        subscription.receiver = .consumer edge → dataStore = n.svsPubSub.dataStore) := by
  have nothing : n.deliver handle item now = (.ok (), n) →
      ∃ dataStore, n.deliver handle item now =
          (.ok (), { n with svsPubSub := { n.svsPubSub with dataStore } }) ∧
        (∀ subscription edge, n.svsPubSub.subscriptions.find? handle = some subscription →
          subscription.receiver = .consumer edge → dataStore = n.svsPubSub.dataStore) :=
    fun same => ⟨n.svsPubSub.dataStore, same, fun _ _ _ _ => rfl⟩
  cases found : n.svsPubSub.subscriptions.find? handle with
  | none => simpa [found] using nothing (by simp only [deliver, found])
  | some subscription =>
    by_cases matched : subscription.topic <+: item.name
    · cases receiver : subscription.receiver with
      | backchannel nodePrefix syncPrefix =>
        refine ⟨_, by simp only [deliver, found, if_pos matched, receiver]; rfl, ?_⟩
        intro other edge same isConsumer
        cases same
        rw [receiver] at isConsumer
        contradiction
      | consumer edge =>
        rw [← found]
        apply nothing
        simp only [deliver, found, if_pos matched, receiver, subscribeCallBack]
        cases held : n.iceflowConsumers.lookup edge with
        | none => rfl
        | some consumer =>
          cases registered : consumer.consumerCallback with
          | none => simp only [registered]
          | some callback =>
            exact absurd ⟨⟨subscription, found, matched, receiver⟩, consumer, held, registered⟩
              (unreached edge callback)
    · rw [← found]
      exact nothing (by simp only [deliver, found, if_neg matched])

/-- No change of the application's memory, the history or the publications. -/
structure Silent (n n' : IceFlow μ) : Prop where
  memory : n'.memory = n.memory
  history : n'.history = n.history
  publications : n'.svsPubSub.publications = n.svsPubSub.publications

/-- Of the calls only `pushData` does more. -/
theorem silent_call {n : IceFlow μ} (wf : WellFormed n) {c : Call μ}
    (other : ∀ edge payload, c ≠ .pushData edge payload) : Silent n (c.perform n) := by
  have unframed (framed : (Op.call c).framed = false) : Silent n (c.perform n) := by
    obtain ⟨subscriptions, consumers, performed, _⟩ := perform_unframed wf framed
    change c.perform n = _ at performed
    rw [performed]
    exact ⟨rfl, rfl, rfl⟩
  cases c with
  | pushData edge payload => exact absurd rfl (other edge payload)
  | repartitionConsumer edge partitions => exact unframed rfl
  | getConsumerStats now => exact unframed rfl
  | getProducerStats now => exact ⟨rfl, rfl, rfl⟩
  | repartitionProducer edge count =>
    simp only [Call.perform, repartitionProducer]
    split
    · exact ⟨rfl, rfl, rfl⟩
    · split <;> exact ⟨rfl, rfl, rfl⟩
  | registerConsumerCallback edge callback =>
    simp only [Call.perform, registerConsumerCallback]
    split <;> exact ⟨rfl, rfl, rfl⟩
  | registerProsumerCallback edge callback =>
    simp only [Call.perform, registerProsumerCallback, registerConsumerCallback]
    split <;> exact ⟨rfl, rfl, rfl⟩

/-- What an operation appends: pushes, or what handling an item appends. -/
inductive Appends (n : IceFlow μ) (op : Op μ) : Prop where
  | pushes (outputs : List Publication)
      (publications : (op.perform n).svsPubSub.publications = n.svsPubSub.publications ++ outputs)
      (pushed : ∀ publication ∈ outputs, ∃ edge, publication.source = .pushed edge)
      (history : (op.perform n).history = n.history)
  | handles (handle : Handle) (item : SubscriptionData) (now : Int) (edge : String)
      (consumerCallback : ConsumerCallback μ) (outputs acknowledgement : List Publication)
      (events : List Event) (delivery : op = .deliver handle item now)
      (reaches : n.Reaches handle item edge consumerCallback)
      (handled : Handled n edge item now (consumerCallback n.memory item.data)
        (n.deliver handle item now) outputs acknowledgement events)

theorem Silent.appends {n : IceFlow μ} {op : Op μ} (silent : Silent n (op.perform n)) :
    Appends n op :=
  .pushes [] (by rw [silent.publications, List.append_nil]) (by simp) silent.history

theorem appends_perform {n : IceFlow μ} (wf : WellFormed n) (op : Op μ) : Appends n op := by
  cases op with
  | deliver handle item now =>
    by_cases reached : ∃ edge consumerCallback, n.Reaches handle item edge consumerCallback
    · obtain ⟨edge, consumerCallback, reaches⟩ := reached
      obtain ⟨outputs, acknowledgement, events, handled⟩ := reaches.handled wf now
      exact .handles handle item now edge consumerCallback outputs acknowledgement events rfl
        reaches handled
    · obtain ⟨dataStore, unchanged, _⟩ := deliver_unreached
        (fun edge callback reaches => reached ⟨edge, callback, reaches⟩) now
      apply Silent.appends
      rw [Op.perform, unchanged]
      exact ⟨rfl, rfl, rfl⟩
  | call c =>
    by_cases pushes : ∃ edge payload, c = .pushData edge payload
    · obtain ⟨edge, payload, rfl⟩ := pushes
      by_cases known : edge ∈ n.iceflowProducers
      · obtain ⟨_, publication, pushed⟩ := pushData_known wf known payload
        refine .pushes [publication] pushed.publications ?_ pushed.history
        intro p member
        rw [List.mem_singleton.mp member]
        exact ⟨edge, pushed.source⟩
      · apply Silent.appends
        rw [Op.perform, Call.perform, pushData_unknown known]
        exact ⟨rfl, rfl, rfl⟩
    · exact Silent.appends (silent_call wf fun edge payload same => pushes ⟨edge, payload, same⟩)

end IceFlow
end Iceflow
