import Iceflow.Node.Deliveries

/-! What the publication log of a node holds: items of its producers, each under a partition
below the number its producer was constructed with, and acknowledgements of its consumers. -/
namespace Iceflow.IceFlow
variable [Platform] {μ : Type}

/-- A publication is named as the call that made it names publications. -/
def Filed (n : IceFlow μ) (publication : Publication) : Prop :=
  match publication.source with
  | .pushed edge => ∃ producer p, n.iceflowProducers.lookup edge = some producer ∧
      p < producer.numberOfPartitions ∧
      partitionName (n.topicOf edge) p = .ok publication.name
  | .acknowledged edge _ =>
    edge ∈ n.iceflowConsumers ∧ backchannelName (n.topicOf edge) = .ok publication.name

def Logged (n : IceFlow μ) : Prop := ∀ publication ∈ n.svsPubSub.publications, n.Filed publication

theorem Filed.congr {n n' : IceFlow μ} {publication : Publication}
    (topics : ∀ edge, n'.topicOf edge = n.topicOf edge)
    (consumers : ∀ edge, edge ∈ n.iceflowConsumers → edge ∈ n'.iceflowConsumers)
    (producers : ∀ edge, (n'.iceflowProducers.lookup edge).map IceflowProducer.identity =
      (n.iceflowProducers.lookup edge).map IceflowProducer.identity)
    (filed : n.Filed publication) : n'.Filed publication := by
  unfold Filed at filed ⊢
  split at filed
  · rename_i edge pushed
    obtain ⟨producer, p, found, below, named⟩ := filed
    obtain ⟨producer', found', same⟩ := StringMap.exists_of_map_eq (producers edge).symm found
    have number : producer'.numberOfPartitions = producer.numberOfPartitions :=
      congrArg (fun identity => identity.2.2.2.1) same.symm
    exact ⟨producer', p, found', by rwa [number], by rwa [topics]⟩
  · exact ⟨consumers _ filed.1, by rw [topics]; exact filed.2⟩

theorem Frame.filed {n n' : IceFlow μ} (frame : Frame n n') {publication : Publication}
    (filed : n.Filed publication) : n'.Filed publication :=
  filed.congr frame.topicOf (fun edge => (frame.mem_consumers edge).mpr) frame.producers

theorem Logged.append {n n' : IceFlow μ} (logged : Logged n) (frame : Frame n n')
    {new : List Publication}
    (publications : n'.svsPubSub.publications = n.svsPubSub.publications ++ new)
    (filed : ∀ publication ∈ new, n.Filed publication) : Logged n' := by
  intro publication member
  rw [publications] at member
  rcases List.mem_append.mp member with old | added
  · exact frame.filed (logged publication old)
  · exact frame.filed (filed publication added)

theorem Logged.same {n n' : IceFlow μ} (logged : Logged n) (frame : Frame n n')
    (publications : n'.svsPubSub.publications = n.svsPubSub.publications) : Logged n' :=
  logged.append frame (by rw [publications, List.append_nil]) (by simp)

/-- The generator's output is taken modulo the number of the construction. -/
theorem nextPartition_lt {n : IceFlow μ} {edge : String} {p : UInt32}
    (drawn : n.nextPartition edge = some p) :
    ∃ producer, n.iceflowProducers.lookup edge = some producer ∧
      p < producer.numberOfPartitions := by
  obtain ⟨producer, found, rfl⟩ := Option.map_eq_some_iff.mp drawn
  exact ⟨producer, found,
    UInt32.mod_lt _ (UInt32.pos_iff_ne_zero.mpr producer.numberOfPartitions_ne_zero)⟩

theorem Pushed.filed {n n' : IceFlow μ} {edge : String} {payload : Bytes}
    {publication : Publication} (pushed : Pushed n edge payload n' publication) :
    n.Filed publication := by
  obtain ⟨p, drawn, named⟩ := pushed.drawn
  obtain ⟨producer, found, below⟩ := nextPartition_lt drawn
  rw [Filed, pushed.source]
  exact ⟨producer, p, found, below, named⟩

theorem Logged.pushData {n : IceFlow μ} (wf : WellFormed n) (logged : Logged n) (edge : String)
    (payload : Bytes) : Logged (n.pushData edge payload).2 := by
  by_cases known : edge ∈ n.iceflowProducers
  · obtain ⟨_, publication, pushed⟩ := pushData_known wf known payload
    apply logged.append (n.frame_pushData edge payload) pushed.publications
    intro p member
    rw [List.mem_singleton.mp member]
    exact pushed.filed
  · rw [pushData_unknown known]
    exact logged

theorem Logged.runScript {n : IceFlow μ} (wf : WellFormed n) (logged : Logged n)
    (script : Script μ) : Logged (n.runScript script).2 := by
  induction script generalizing n with
  | done memory => exact logged.same { Frame.refl n with } rfl
  | throws memory what => exact logged.same { Frame.refl n with } rfl
  | push edge data memory next ih =>
    have frame := n.frame_pushData edge data
    have pushed := logged.pushData wf edge data
    rw [IceFlow.runScript]
    split
    · rename_i e n' ended
      rw [ended] at pushed
      exact pushed.same { Frame.refl n' with } rfl
    · rename_i n' returned
      rw [returned] at frame pushed
      exact ih (frame.wellFormed wf) pushed

theorem Logged.acknowledge {n : IceFlow μ} (wf : WellFormed n) (logged : Logged n)
    {edge : String} {consumer : IceflowConsumer μ} (known : edge ∈ n.iceflowConsumers)
    (topic : consumer.subTopic = n.topicOf edge) (item : SubscriptionData) :
    Logged (n.acknowledge consumer edge item).2 := by
  simp only [IceFlow.acknowledge, SVSPubSub.lock_of_live wf.live]
  split
  · exact logged
  · rename_i name named
    refine logged.append { Frame.refl n with table := rfl }
      (SVSPubSub.publications_publish n.svsPubSub _) ?_
    intro publication member
    rw [List.mem_singleton.mp member, Filed]
    exact ⟨known, topic ▸ named⟩

theorem Logged.subscribeCallBack {n : IceFlow μ} (wf : WellFormed n) (logged : Logged n)
    (edge : String) (item : SubscriptionData) (now : Int) :
    Logged (n.subscribeCallBack edge item now).2 := by
  unfold IceFlow.subscribeCallBack
  split
  · exact logged
  · rename_i consumer found
    split
    · exact logged
    · rename_i callback registered
      have invoked := n.frame_log (.invoked edge item)
      have frame := invoked.trans (frame_runScript _ (callback n.memory item.data))
      have ran := Logged.runScript (invoked.wellFormed wf) (logged.same invoked rfl)
        (callback n.memory item.data)
      split
      · rename_i e n' ended
        rw [ended] at ran
        exact ran
      · rename_i n' returned
        rw [returned] at frame ran
        -- The callback returned: the time is recorded and the item acknowledged.
        have known : edge ∈ (n'.log (.completed edge item)).iceflowConsumers :=
          (frame.mem_consumers edge).mpr (StringMap.mem_of_lookup found)
        have saved := (n'.frame_log (.completed edge item)).trans (frame_saveTimestamp _ edge now)
        have whole := frame.trans saved
        apply Logged.acknowledge (whole.wellFormed wf)
          (ran.same saved (congrArg _ (saveTimestamp_records known now).2))
          ((whole.mem_consumers edge).mpr (StringMap.mem_of_lookup found))
        rw [whole.topicOf, (wf.consumer_fixed edge consumer found).1]

theorem Logged.deliver {n : IceFlow μ} (wf : WellFormed n) (logged : Logged n) (handle : Handle)
    (item : SubscriptionData) (now : Int) : Logged (n.deliver handle item now).2 := by
  unfold IceFlow.deliver
  split
  · exact logged
  · split
    · split
      · exact logged.subscribeCallBack wf _ item now
      · exact logged.same { Frame.refl n with table := rfl } rfl
    · exact logged

theorem Logged.perform {n : IceFlow μ} (wf : WellFormed n) (logged : Logged n) (op : Op μ) :
    Logged (op.perform n) := by
  cases framed : op.framed with
  | false =>
    obtain ⟨subscriptions, consumers, performed, same⟩ := perform_unframed wf framed
    rw [performed]
    intro publication member
    exact Filed.congr (n := n) (fun _ => rfl) (fun edge => (same edge).mpr) (fun _ => rfl)
      (logged publication member)
  | true =>
    cases op with
    | deliver handle item now => exact logged.deliver wf handle item now
    | call c =>
      by_cases pushes : ∃ edge payload, c = .pushData edge payload
      · obtain ⟨edge, payload, rfl⟩ := pushes
        exact logged.pushData wf edge payload
      · exact logged.same (Op.frame n framed)
          (silent_call wf fun edge payload same => pushes ⟨edge, payload, same⟩).publications

theorem Constructed.run_logged {n₀ : IceFlow μ} (constructed : n₀.Constructed)
    (ops : List (Op μ)) : Logged (n₀.run ops) := by
  apply constructed.run_invariant (P := Logged) (fun n op wf logged => logged.perform wf op)
  obtain ⟨dagParser, nodeName, environment, built⟩ := constructed
  intro publication member
  rw [(construct_fresh built).publications] at member
  cases member

end Iceflow.IceFlow
