import Iceflow.Node.Callbacks
import Iceflow.Statistics

/-! What the statistics of a node's edges are computed from. A consumer records a time when
its callback has returned, and what happens to it otherwise leaves its records alone; a
producer records nothing. -/
namespace Iceflow
variable [Platform] {μ : Type}

def Event.recordedTime (edge : String) : Event → Option Int
  | .recorded e timestamp => if e = edge then some timestamp else none
  | _ => none

/-- Readings of the clock for the consumer of an edge. -/
def Op.readings (edge : String) : Op μ → List Int
  | .deliver _ _ now => [now]
  | .call (.getConsumerStats now) => [now edge]
  | _ => []

namespace IceflowConsumer

/-- The part of a consumer that its statistics depend on. -/
def records (consumer : IceflowConsumer μ) : List Int × Int × Int :=
  (consumer.consumptionTimestamps, consumer.maxConsumptionAge, consumer.idleSince)

theorem getConsumptionStats_records {consumer other : IceflowConsumer μ}
    (same : consumer.records = other.records) (now : Int) :
    (consumer.getConsumptionStats now).1 = (other.getConsumptionStats now).1 := by
  simp only [records, Prod.mk.injEq] at same
  simp only [getConsumptionStats, same]

/-- `saveTimestamp` on records. -/
def record (records : List Int × Int × Int) (timestamp : Int) : List Int × Int × Int :=
  (cleanUpTimestamps records.2.1 timestamp (records.1 ++ [timestamp]), records.2.1, timestamp)

theorem saveTimestamps_records (consumer : IceflowConsumer μ) (times : List Int) :
    (times.foldl saveTimestamp consumer).records = times.foldl record consumer.records := by
  induction times generalizing consumer with
  | nil => rfl
  | cons time rest ih => exact ih (consumer.saveTimestamp time)

omit [Platform] in
theorem record_maxAge (times : List Int) (before : List Int × Int × Int) :
    (times.foldl record before).2.1 = before.2.1 := by
  induction times generalizing before with
  | nil => rfl
  | cons time rest ih => exact ih (record before time)

omit [Platform] in
/-- What is no longer among the timestamps of a consumer was too old at some record. -/
theorem record_removes (times : List Int) (before : List Int × Int × Int) :
    ∃ removed, before.1 ++ times = removed ++ (times.foldl record before).1 ∧
      ∀ time ∈ removed, ∃ reference ∈ times, before.2.1 < time - reference := by
  induction times generalizing before with
  | nil => exact ⟨[], List.append_nil _, by simp⟩
  | cons first rest ih =>
    obtain ⟨now, split, old⟩ :=
      cleanUpTimestamps_removes before.2.1 first (before.1 ++ [first])
    obtain ⟨later, split', old'⟩ := ih (record before first)
    refine ⟨now ++ later, ?_, ?_⟩
    · calc before.1 ++ first :: rest
          = (before.1 ++ [first]) ++ rest := by simp
        _ = now ++ ((record before first).1 ++ rest) := by
          rw [split, List.append_assoc]
          rfl
        _ = (now ++ later) ++ (rest.foldl record (record before first)).1 := by
          rw [split', List.append_assoc]
    · intro time member
      rcases List.mem_append.mp member with removed | removed
      · exact ⟨first, List.mem_cons_self, old time removed⟩
      · obtain ⟨reference, recorded, passed⟩ := old' time removed
        exact ⟨reference, List.mem_cons_of_mem _ recorded, passed⟩

theorem Kept.getConsumptionStats {start now : Int} {history : List (Timed Unit)}
    {consumer : IceflowConsumer μ} (kept : Kept start history consumer)
    (past : ∀ time ∈ start :: Timed.eventTimes history, time ≤ now) :
    (consumer.getConsumptionStats now).1 = ⟨UInt64.ofNat (Timed.eventTimes history).length,
      wholeMilliseconds (Timed.lastTime start history) now⟩ := by
  have none_removed : cleanUpTimestamps oneSecond now (Timed.eventTimes history) =
      Timed.eventTimes history :=
    cleanUpTimestamps_keeps (by decide)
      (fun time member => past time (List.mem_cons_of_mem _ member))
  have idle := determineIdleTime_eq (past _ (Timed.lastTime_mem start history))
  simp only [IceflowConsumer.getConsumptionStats, kept.timestamps, kept.maxAge, kept.idleSince,
    none_removed, idle]

theorem unsubscribeFromAllPartitions_records (consumer : IceflowConsumer μ) (svs : SVSPubSub) :
    (consumer.unsubscribeFromAllPartitions svs).1.records = consumer.records := rfl

theorem subscribeToTopicPartition_records {consumer consumer' : IceflowConsumer μ}
    {svs svs' : SVSPubSub} {partition : UInt32}
    (subscribed : consumer.subscribeToTopicPartition svs partition = .ok (consumer', svs')) :
    consumer'.records = consumer.records := by
  unfold subscribeToTopicPartition at subscribed
  split at subscribed
  · cases subscribed
  · simp only [Results.bind_ok, Results.pure_ok] at subscribed
    obtain ⟨dataId, _, made⟩ := subscribed
    cases made
    rfl

theorem subscribeToPartitions_records (partitions : List UInt32) (consumer : IceflowConsumer μ)
    (svs : SVSPubSub) :
    (consumer.subscribeToPartitions svs partitions).2.1.records = consumer.records := by
  induction partitions generalizing consumer svs with
  | nil => rfl
  | cons partition rest ih =>
    rw [subscribeToPartitions]
    split
    · rfl
    · rename_i consumer' svs' subscribed
      rw [ih]
      exact subscribeToTopicPartition_records subscribed

theorem repartition_records (consumer : IceflowConsumer μ) (svs : SVSPubSub)
    (partitions : List UInt32) :
    (consumer.repartition svs partitions).2.1.records = consumer.records := by
  have kept := subscribeToPartitions_records partitions
    (consumer.unsubscribeFromAllPartitions svs).1 (consumer.unsubscribeFromAllPartitions svs).2
  rw [unsubscribeFromAllPartitions_records] at kept
  unfold repartition
  dsimp only
  split <;> rename_i same <;> rw [same] at kept <;> exact kept

end IceflowConsumer

namespace IceFlow
open IceflowConsumer

def recordedTimes (n : IceFlow μ) (edge : String) : List Int :=
  n.history.filterMap (Event.recordedTime edge)

/-- What an operation records for an edge, and what the consumer's records become. -/
structure Records (n n' : IceFlow μ) (edge : String) (times : List Int) : Prop where
  recorded : n'.recordedTimes edge = n.recordedTimes edge ++ times
  consumer : (n'.iceflowConsumers.lookup edge).map records =
    ((n.iceflowConsumers.lookup edge).map records).map (fun old => times.foldl record old)

theorem Records.of_same {n n' : IceFlow μ} {edge : String} (history : n'.history = n.history)
    (consumers : (n'.iceflowConsumers.lookup edge).map records =
      (n.iceflowConsumers.lookup edge).map records) : Records n n' edge [] :=
  ⟨by rw [recordedTimes, history, List.append_nil, recordedTimes],
    consumers.trans Option.map_id'.symm⟩

theorem Records.trans {n n' n'' : IceFlow μ} {edge : String} {times times' : List Int}
    (first : Records n n' edge times) (second : Records n' n'' edge times') :
    Records n n'' edge (times ++ times') := by
  constructor
  · rw [second.recorded, first.recorded, List.append_assoc]
  · rw [second.consumer, first.consumer, Option.map_map]
    simp only [List.foldl_append, Function.comp_def]

theorem history_acknowledge (n : IceFlow μ) (consumer : IceflowConsumer μ) (edge : String)
    (item : SubscriptionData) : (n.acknowledge consumer edge item).2.history = n.history := by
  unfold acknowledge
  split
  · rfl
  · split <;> rfl

theorem records_deliver {n : IceFlow μ} (wf : WellFormed n) (handle : Handle)
    (item : SubscriptionData) (now : Int) (edge : String) :
    Records n (n.deliver handle item now).2 edge [] ∨
      Records n (n.deliver handle item now).2 edge [now] := by
  by_cases reached : ∃ e callback, n.Reaches handle item e callback
  · obtain ⟨e, callback, reaches⟩ := reached
    obtain ⟨consumer, held, registered⟩ := reaches.registered
    rw [reaches.deliver_eq now]
    simp only [subscribeCallBack, held, registered]
    have invoked := n.frame_log (.invoked e item)
    obtain ⟨_, ran⟩ := runScript_ran (invoked.wellFormed wf) (callback n.memory item.data)
    have logged := ran.history
    have kept := consumers_runScript (n.log (.invoked e item)) (callback n.memory item.data)
    generalize (n.log (.invoked e item)).runScript (callback n.memory item.data) = after
      at logged kept
    obtain ⟨returned, n'⟩ := after
    replace logged : n'.history = n.history ++ [.invoked e item] := logged
    replace kept : n'.iceflowConsumers = n.iceflowConsumers := kept
    cases returned with
    | error error =>
      left
      constructor
      · simp [recordedTimes, logged, Event.recordedTime]
      · rw [kept]
        exact Option.map_id'.symm
    | ok value =>
      have found : (n'.log (.completed e item)).iceflowConsumers.lookup e = some consumer := by
        change n'.iceflowConsumers.lookup e = _
        rw [kept, held]
      have saved : (n'.log (.completed e item)).saveTimestamp e now =
          { n'.log (.completed e item) with
            iceflowConsumers := n'.iceflowConsumers.insert e (consumer.saveTimestamp now)
            }.log (.recorded e now) := by
        rw [IceFlow.saveTimestamp, found]
        rfl
      simp only [saved]
      by_cases here : e = edge
      · right
        subst here
        constructor
        · rw [recordedTimes, history_acknowledge]
          simp [log, logged, recordedTimes, Event.recordedTime, List.filterMap_cons]
        · rw [consumers_acknowledge]
          simp only [log, AList.lookup_insert, held, Option.map_some]
          rfl
      · left
        constructor
        · rw [recordedTimes, history_acknowledge]
          simp [log, logged, recordedTimes, Event.recordedTime, here]
        · rw [consumers_acknowledge]
          simp only [log, kept, AList.lookup_insert_ne (Ne.symm here)]
          exact Option.map_id'.symm
  · obtain ⟨dataStore, unchanged, _⟩ := deliver_unreached
      (fun e callback reaches => reached ⟨e, callback, reaches⟩) now
    rw [unchanged]
    exact Or.inl (.of_same rfl rfl)

theorem records_call {n : IceFlow μ} (wf : WellFormed n) (c : Call μ) (edge : String) :
    Records n (c.perform n) edge [] := by
  apply Records.of_same (memory_call wf c).2
  cases c with
  | repartitionConsumer e partitions =>
    simp only [Call.perform, repartitionConsumer]
    split
    · rfl
    · rename_i consumer found
      exact StringMap.map_lookup_insert records found
        (repartition_records consumer n.svsPubSub partitions) edge
  | repartitionProducer e count =>
    simp only [Call.perform, repartitionProducer]
    split
    · rfl
    · split <;> rfl
  | pushData e payload => rw [Call.perform, consumers_pushData]
  | registerConsumerCallback e callback | registerProsumerCallback e callback =>
    simp only [Call.perform, registerProsumerCallback, registerConsumerCallback]
    split
    · rfl
    · rename_i consumer found
      apply StringMap.map_lookup_insert records found
      rfl
  | getConsumerStats now => rw [Call.perform, getConsumerStats_node wf.live]
  | getProducerStats now => rfl

theorem records_perform {n : IceFlow μ} (wf : WellFormed n) (op : Op μ) (edge : String) :
    ∃ times, Records n (op.perform n) edge times ∧ times.Sublist (op.readings edge) := by
  cases op with
  | call c => exact ⟨[], records_call wf c edge, List.nil_sublist _⟩
  | deliver handle item now =>
    rcases records_deliver wf handle item now edge with nothing | recorded
    · exact ⟨[], nothing, List.nil_sublist _⟩
    · exact ⟨[now], recorded, List.Sublist.refl _⟩

/-- A consumer's records are those of the times that were recorded, one after the other. -/
theorem Constructed.run_records {n₀ : IceFlow μ} (constructed : n₀.Constructed)
    (ops : List (Op μ)) (edge : String) :
    Records n₀ (n₀.run ops) edge ((n₀.run ops).recordedTimes edge) ∧
      ((n₀.run ops).recordedTimes edge).Sublist (ops.flatMap (Op.readings edge)) := by
  have initially : n₀.recordedTimes edge = [] := by
    obtain ⟨dagParser, nodeName, environment, built⟩ := constructed
    rw [recordedTimes, (construct_fresh built).history]
    rfl
  induction ops using List.reverseRecOn with
  | nil =>
    change Records n₀ n₀ edge (n₀.recordedTimes edge) ∧ (n₀.recordedTimes edge).Sublist []
    rw [initially]
    exact ⟨.of_same rfl rfl, List.Sublist.refl _⟩
  | append_singleton ops op ih =>
    obtain ⟨before, sublist⟩ := ih
    obtain ⟨times, now, read⟩ := records_perform (constructed.run_wellFormed ops) op edge
    rw [run_concat, List.flatMap_append, List.flatMap_singleton, now.recorded]
    exact ⟨before.trans now, sublist.append read⟩

theorem Constructed.consumer_eq {n₀ : IceFlow μ} (constructed : n₀.Constructed) {edge : String}
    {consumer : IceflowConsumer μ} (found : n₀.iceflowConsumers.lookup edge = some consumer) :
    consumer = IceflowConsumer.construct n₀.syncPrefix edge consumer.idleSince := by
  obtain ⟨dagParser, nodeName, environment, built⟩ := constructed
  rw [(construct_fresh built).consumers] at found
  have made := constructConsumers_lookup found
  rw [made]
  rfl

/-- What a consumer recorded and no longer holds was too old at some record. -/
theorem Constructed.remembers {n₀ : IceFlow μ} (constructed : n₀.Constructed) (ops : List (Op μ))
    {edge : String} {consumer : IceflowConsumer μ}
    (found : (n₀.run ops).iceflowConsumers.lookup edge = some consumer) :
    ∃ removed, (n₀.run ops).recordedTimes edge = removed ++ consumer.consumptionTimestamps ∧
      ∀ time ∈ removed, ∃ reference ∈ (n₀.run ops).recordedTimes edge,
        consumer.maxConsumptionAge < time - reference := by
  have changed := (constructed.run_records ops edge).1.consumer
  rw [found, Option.map_some, Option.map_map] at changed
  obtain ⟨first, held, same⟩ := Option.map_eq_some_iff.mp changed.symm
  have empty : first.consumptionTimestamps = [] := by rw [constructed.consumer_eq held]; rfl
  obtain ⟨removed, split, old⟩ :=
    record_removes ((n₀.run ops).recordedTimes edge) first.records
  have kept := record_maxAge ((n₀.run ops).recordedTimes edge) first.records
  change List.foldl record _ _ = _ at same
  rw [same] at split kept
  rw [← kept] at old
  refine ⟨removed, ?_, old⟩
  simpa [records, empty] using split

/-- From the construction on, the clock that a consumer reads does not run backwards. -/
def Clocked (n₀ : IceFlow μ) (ops : List (Op μ)) : Prop :=
  ∀ edge consumer, n₀.iceflowConsumers.lookup edge = some consumer →
    (consumer.idleSince :: ops.flatMap (Op.readings edge)).Pairwise (· ≤ ·)

theorem Clocked.init {n₀ : IceFlow μ} {first rest : List (Op μ)}
    (clocked : n₀.Clocked (first ++ rest)) : n₀.Clocked first := by
  intro edge consumer found
  have ordered := clocked edge consumer found
  rw [List.flatMap_append, ← List.cons_append] at ordered
  exact (List.pairwise_append.mp ordered).1

/-- A consumer reports how many times it has recorded since its construction, and the time
since the last of them, if it is asked after all of them. -/
theorem Constructed.reported {n₀ n : IceFlow μ} (constructed : n₀.Constructed) {edge : String}
    (records : Records n₀ n edge (n.recordedTimes edge)) {now : Int}
    (clocked : ∀ consumer, n₀.iceflowConsumers.lookup edge = some consumer →
      (consumer.idleSince :: (n.recordedTimes edge ++ [now])).Pairwise (· ≤ ·)) :
    (n.iceflowConsumers.lookup edge).map
        (fun consumer => (consumer.getConsumptionStats now).1) =
      (n₀.iceflowConsumers.lookup edge).map (fun consumer =>
        ⟨UInt64.ofNat (n.recordedTimes edge).length,
          wholeMilliseconds ((n.recordedTimes edge).getLast?.getD consumer.idleSince) now⟩) := by
  generalize n.recordedTimes edge = times at records clocked ⊢
  have changed := records.consumer
  cases found : n₀.iceflowConsumers.lookup edge with
  | none =>
    rw [found, Option.map_none, Option.map_none, Option.map_eq_none_iff] at changed
    rw [changed]
    rfl
  | some first =>
    rw [found, Option.map_some, Option.map_some, Option.map_eq_some_iff] at changed
    obtain ⟨consumer, found', same⟩ := changed
    rw [found', Option.map_some, Option.map_some]
    congr 1
    -- The consumer's own history: a record for each time, then the query.
    have times_of (times : List Int) :
        Timed.eventTimes (times.map (Timed.event ())) = times := by
      simp [Timed.eventTimes, Timed.eventTime, List.filterMap_map, Function.comp_def]
    have ordered : Timed.Ordered first.idleSince
        (times.map (Timed.event ()) ++ [.query now]) := by
      rw [Timed.Ordered, List.map_append, List.map_map]
      have same : List.map (Timed.time ∘ Timed.event ()) times = times := List.map_id _
      rw [same]
      exact clocked first found
    have kept := IceflowConsumer.run_kept (μ := μ) n₀.syncPrefix edge ordered.init
    have run : consumer.records = (Transition.run IceflowConsumer.perform
        (IceflowConsumer.construct n₀.syncPrefix edge first.idleSince : IceflowConsumer μ)
          (times.map (Timed.event ()))).records := by
      rw [same, ← constructed.consumer_eq found, ← saveTimestamps_records, Transition.run,
        List.foldl_map]
      rfl
    have stats := kept.getConsumptionStats ordered.past
    rw [times_of, Timed.lastTime, times_of] at stats
    exact (getConsumptionStats_records run now).trans stats

theorem Constructed.consumptionStats {n₀ : IceFlow μ} (constructed : n₀.Constructed)
    {ops : List (Op μ)} {now : String → Int}
    (clocked : n₀.Clocked (ops ++ [.call (.getConsumerStats now)])) (edge : String) :
    ((n₀.run ops).iceflowConsumers.lookup edge).map
        (fun consumer => (consumer.getConsumptionStats (now edge)).1) =
      (n₀.iceflowConsumers.lookup edge).map (fun consumer =>
        ⟨UInt64.ofNat ((n₀.run ops).recordedTimes edge).length,
          wholeMilliseconds (((n₀.run ops).recordedTimes edge).getLast?.getD consumer.idleSince)
            (now edge)⟩) := by
  obtain ⟨records, sublist⟩ := constructed.run_records ops edge
  apply constructed.reported records
  intro consumer found
  have readings := clocked edge consumer found
  rw [List.flatMap_append] at readings
  exact readings.sublist (.cons_cons _ (sublist.append (List.Sublist.refl _)))

theorem lookup_getConsumerStats (n : IceFlow μ) (now : String → Int) (edge : String) :
    (n.getConsumerStats now).1.lookup edge = (n.iceflowConsumers.lookup edge).map
      (fun consumer => (consumer.getConsumptionStats (now edge)).1) := by
  rw [← StringMap.lookup_foldl_emplace n.iceflowConsumers
    (fun edge consumer => (consumer.getConsumptionStats (now edge)).1) edge]
  unfold getConsumerStats
  generalize (∅ : StringMap EdgeConsumptionStats) = result
  generalize n.iceflowConsumers.entries = consumers
  induction consumers generalizing n result with
  | nil => rfl
  | cons consumer rest ih => exact ih _ _

theorem lookup_getProducerStats (n : IceFlow μ) (now : String → Int) (edge : String) :
    (n.getProducerStats now).1.lookup edge = (n.iceflowProducers.lookup edge).map
      (fun producer => (producer.getProductionStats (now edge)).1) :=
  StringMap.lookup_foldl_emplace n.iceflowProducers
    (fun edge producer => (producer.getProductionStats (now edge)).1) edge

def Unrecorded (n : IceFlow μ) : Prop :=
  ∀ edge producer, n.iceflowProducers.lookup edge = some producer → producer.Unrecorded

theorem Unrecorded.insert {n : IceFlow μ} (unrecorded : n.Unrecorded) {edge : String}
    {producer : IceflowProducer} (new : producer.Unrecorded) {e : String}
    {found : IceflowProducer}
    (present : (n.iceflowProducers.insert edge producer).lookup e = some found) :
    found.Unrecorded := by
  rw [StringMap.lookup_insert] at present
  split at present
  · cases present
    exact new
  · exact unrecorded e found present

theorem Unrecorded.pushData {n : IceFlow μ} (unrecorded : n.Unrecorded) (edge : String)
    (payload : Bytes) : (n.pushData edge payload).2.Unrecorded := by
  unfold IceFlow.pushData
  split
  · exact unrecorded
  · rename_i producer found
    exact fun e other => unrecorded.insert
      ((unrecorded edge producer found).pushData n.svsPubSub payload)

theorem Unrecorded.runScript {n : IceFlow μ} (unrecorded : n.Unrecorded) (script : Script μ) :
    (n.runScript script).2.Unrecorded := by
  induction script generalizing n with
  | done memory => exact unrecorded
  | throws memory what => exact unrecorded
  | push edge data memory next ih =>
    have pushed := unrecorded.pushData edge data
    unfold IceFlow.runScript
    split <;> rename_i same <;> rw [same] at pushed
    · exact pushed
    · exact ih pushed

theorem producers_saveTimestamp (n : IceFlow μ) (edge : String) (timestamp : Int) :
    (n.saveTimestamp edge timestamp).iceflowProducers = n.iceflowProducers := by
  unfold IceFlow.saveTimestamp
  split <;> rfl

theorem producers_acknowledge (n : IceFlow μ) (consumer : IceflowConsumer μ) (edge : String)
    (item : SubscriptionData) :
    (n.acknowledge consumer edge item).2.iceflowProducers = n.iceflowProducers := by
  unfold acknowledge
  split
  · rfl
  · split <;> rfl

theorem Unrecorded.deliver {n : IceFlow μ} (unrecorded : n.Unrecorded) (handle : Handle)
    (item : SubscriptionData) (now : Int) : (n.deliver handle item now).2.Unrecorded := by
  by_cases reached : ∃ e callback, n.Reaches handle item e callback
  · obtain ⟨e, callback, reaches⟩ := reached
    obtain ⟨consumer, held, registered⟩ := reaches.registered
    rw [reaches.deliver_eq now]
    simp only [subscribeCallBack, held, registered]
    have ran : ((n.log (.invoked e item)).runScript (callback n.memory item.data)).2.Unrecorded :=
      Unrecorded.runScript (n := n.log (.invoked e item)) unrecorded _
    split <;> rename_i same <;> rw [same] at ran
    · exact ran
    · rw [Unrecorded, producers_acknowledge, producers_saveTimestamp]
      exact ran
  · obtain ⟨dataStore, unchanged, _⟩ := deliver_unreached
      (fun e callback reaches => reached ⟨e, callback, reaches⟩) now
    rw [unchanged]
    exact unrecorded

theorem Unrecorded.perform {n : IceFlow μ} (wf : WellFormed n) (unrecorded : n.Unrecorded)
    (op : Op μ) : (op.perform n).Unrecorded := by
  cases op with
  | deliver handle item now => exact unrecorded.deliver handle item now
  | call c =>
    cases c with
    | repartitionConsumer e partitions =>
      simp only [Op.perform, Call.perform, repartitionConsumer]
      split <;> exact unrecorded
    | repartitionProducer e count =>
      simp only [Op.perform, Call.perform, repartitionProducer]
      split
      · exact unrecorded
      · rename_i producer found
        split
        · exact unrecorded
        · rename_i producer' set
          obtain ⟨partitions, _, rfl⟩ := IceflowProducer.setTopicPartitions_ok.mp set
          have old := unrecorded e producer found
          have new : IceflowProducer.Unrecorded { producer with topicPartitions := partitions } :=
            ⟨old.timestamps, old.idleSince, old.maxAge⟩
          exact fun _ _ => unrecorded.insert new
    | pushData e payload => exact unrecorded.pushData e payload
    | registerConsumerCallback e callback | registerProsumerCallback e callback =>
      simp only [Op.perform, Call.perform, registerProsumerCallback, registerConsumerCallback]
      split <;> exact unrecorded
    | getConsumerStats now =>
      simp only [Op.perform, Call.perform]
      rw [getConsumerStats_node wf.live]
      exact unrecorded
    | getProducerStats now => exact unrecorded

theorem unrecorded_constructProducers {nodePrefix syncPrefix : String}
    {generator : String → Stream' UInt32} {edges : List Edge}
    {producers producers' : StringMap IceflowProducer} {svs svs' : SVSPubSub}
    (constructed : constructProducers nodePrefix syncPrefix generator edges producers svs =
      .ok (producers', svs'))
    (unrecorded : ∀ id producer, producers.lookup id = some producer → producer.Unrecorded) :
    ∀ id producer, producers'.lookup id = some producer → producer.Unrecorded := by
  induction edges generalizing producers svs with
  | nil =>
    cases constructed
    exact unrecorded
  | cons edge rest ih =>
    rw [constructProducers] at constructed
    split at constructed
    · cases constructed
    · rename_i producer svs'' made
      apply ih constructed
      intro id found present
      rcases StringMap.lookup_emplace present with old | ⟨_, rfl⟩
      · exact unrecorded id found old
      · exact IceflowProducer.unrecorded_of_construct made

theorem Constructed.run_unrecorded {n₀ : IceFlow μ} (constructed : n₀.Constructed)
    (ops : List (Op μ)) : (n₀.run ops).Unrecorded := by
  apply constructed.run_invariant (P := Unrecorded)
  · exact fun n op wf unrecorded => unrecorded.perform wf op
  · obtain ⟨dagParser, nodeName, environment, built⟩ := constructed
    simp only [construct, Results.bind_ok, Results.pure_ok] at built
    obtain ⟨node, _, _, _, _, _, ⟨producers, svs⟩, loop, rfl⟩ := built
    exact unrecorded_constructProducers loop (by simp)

/-- A producer that has recorded nothing reports no units, and the time since the epoch of
the clock. -/
theorem Unrecorded.reported {n : IceFlow μ} (unrecorded : n.Unrecorded) {edge : String}
    {producer : IceflowProducer} (found : n.iceflowProducers.lookup edge = some producer)
    (now : Int) : (producer.getProductionStats now).1 = ⟨0, UInt64.ofInt (now.tdiv 1000000)⟩ := by
  obtain ⟨timestamps, idleSince, _⟩ := unrecorded edge producer found
  rw [IceflowProducer.getProductionStats, timestamps, idleSince, determineIdleTime, Int.sub_zero]
  rfl

theorem Constructed.productionStats {n₀ : IceFlow μ} (constructed : n₀.Constructed)
    (ops : List (Op μ)) (now : String → Int) (edge : String) :
    ((n₀.run ops).iceflowProducers.lookup edge).map
        (fun producer => (producer.getProductionStats (now edge)).1) =
      (n₀.iceflowProducers.lookup edge).map
        (fun _ => ⟨0, UInt64.ofInt ((now edge).tdiv 1000000)⟩) := by
  have members := (constructed.run_producers ops).2 edge
  cases found : (n₀.run ops).iceflowProducers.lookup edge with
  | none =>
    rw [found, Option.map_none, eq_comm, Option.map_eq_none_iff] at members
    rw [members]
    rfl
  | some producer =>
    obtain ⟨first, present, _⟩ := StringMap.exists_of_map_eq members found
    rw [present, Option.map_some, Option.map_some,
      (constructed.run_unrecorded ops).reported found]

end IceFlow
end Iceflow
