import Iceflow.Node.Joining
import Iceflow.NodeInstanceService

/-! The handlers of the service while the node runs. The server runs each handler in a thread,
and nothing excludes these threads from each other or from the event loop, so their steps and
the node's operations interleave. A handler's access to one consumer or producer is one step:
it removes all subscriptions, makes one, copies a consumer, or destroys a copy. Races inside
these steps are left out. -/
namespace Iceflow
open IceFlow
variable [Platform] {κ μ : Type}

namespace NodeInstanceService

inductive Handler (μ : Type) where
  | idle
  /-- In the loop of `subscribeToPartitions`, with the partitions that are left. -/
  | subscribing (request : RepartitionRequest) (partitions : List UInt32)
  /-- In the loop of `getConsumerStats`, with the edges that are left. -/
  | consumers (edges : List String) (consumerStats : StringMap EdgeConsumptionStats)
  /-- In this loop, with the copy of the consumer of an edge. -/
  | asking (edge : String) (edges : List String) (consumerStats : StringMap EdgeConsumptionStats)
      (consumer : IceflowConsumer μ)
  /-- In the loop of `getProducerStats`. -/
  | producers (edges : List String) (consumerStats : StringMap EdgeConsumptionStats)
      (producerStats : StringMap EdgeProductionStats)
  | answered (response : NodeInstance.Response)

namespace Handler

/-- The ends of `Repartition`: with `success`, or in the `catch` clause. -/
def repartitioned (request : RepartitionRequest) : Handler μ :=
  .answered (.repartition .ok
    ⟨"", true, request.lowerPartitionBound, request.upperPartitionBound⟩)

def failed (request : RepartitionRequest) : Handler μ :=
  .answered (.repartition (.invalidArgument "Consumer repartitioning has failed.")
    ⟨"", false, request.lowerPartitionBound, request.upperPartitionBound⟩)

/-- `Repartition` up to the loop over the partitions. -/
def repartition (n : IceFlow μ) (request : RepartitionRequest) : Handler μ × IceFlow μ :=
  let partitions := partitionRange request.lowerPartitionBound request.upperPartitionBound
  match n.iceflowConsumers.lookup request.edgeName with
  | none => (failed request, n)
  | some consumer =>
    let (consumer, svsPubSub) := consumer.unsubscribeFromAllPartitions n.svsPubSub
    (.subscribing request partitions, { n with
      svsPubSub
      iceflowConsumers := n.iceflowConsumers.insert request.edgeName consumer })

/-- `QueryStats` up to the loop over the consumers. -/
def queryStats (n : IceFlow μ) : Handler μ := .consumers n.iceflowConsumers.keys ∅

/-- The next step of a handler, with what it may read of the clock. An edge that a handler has
found is never removed from the node's maps. -/
def proceed (n : IceFlow μ) (now : Int) : Handler μ → Handler μ × IceFlow μ
  | .subscribing request [] => (repartitioned request, n)
  | .subscribing request (partition :: rest) =>
    match n.iceflowConsumers.lookup request.edgeName with
    | none => (.subscribing request rest, n)
    | some consumer =>
      match consumer.subscribeToTopicPartition n.svsPubSub partition with
      | .error e => (if e.isRuntimeError then repartitioned request else failed request, n)
      | .ok (consumer, svsPubSub) => (.subscribing request rest, { n with
          svsPubSub
          iceflowConsumers := n.iceflowConsumers.insert request.edgeName consumer })
  | .consumers [] consumerStats => (.producers n.iceflowProducers.keys consumerStats ∅, n)
  | .consumers (edge :: rest) consumerStats =>
    match n.iceflowConsumers.lookup edge with
    | none => (.consumers rest consumerStats, n)
    | some consumer => (.asking edge rest consumerStats consumer, n)
  | .asking edge rest consumerStats consumer =>
    let (stats, consumer) := consumer.getConsumptionStats now
    (.consumers rest (consumerStats.emplace edge stats),
      { n with svsPubSub := consumer.destroy n.svsPubSub })
  | .producers [] consumerStats producerStats =>
    (.answered (.queryStats .ok (encodeStats consumerStats producerStats)), n)
  | .producers (edge :: rest) consumerStats producerStats =>
    match n.iceflowProducers.lookup edge with
    | none => (.producers rest consumerStats producerStats, n)
    | some producer => (.producers rest consumerStats
        (producerStats.emplace edge (producer.getProductionStats now).1), n)
  | .idle => (.idle, n)
  | .answered response => (.answered response, n)

/-- What a handler is about to look up or to remove is what it has found in the node. -/
def Known (n : IceFlow μ) : Handler μ → Prop
  | .subscribing request _ => request.edgeName ∈ n.iceflowConsumers
  | .consumers edges _ => ∀ edge ∈ edges, edge ∈ n.iceflowConsumers
  | .asking edge edges _ consumer => (∀ edge ∈ edges, edge ∈ n.iceflowConsumers) ∧
      n.Copied edge consumer.subscriptionHandles
  | .producers edges _ _ => ∀ edge ∈ edges, edge ∈ n.iceflowProducers
  | .idle | .answered _ => True

theorem Known.later {n n' : IceFlow μ} {handler : Handler μ} (known : handler.Known n)
    (later : Later n n') : handler.Known n' := by
  cases handler with
  | subscribing request partitions => exact (later.consumers _).mpr known
  | consumers edges consumerStats =>
    exact fun edge member => (later.consumers edge).mpr (known edge member)
  | asking edge edges consumerStats consumer =>
    exact ⟨fun edge member => (later.consumers edge).mpr (known.1 edge member),
      known.2.later later⟩
  | producers edges consumerStats producerStats =>
    exact fun edge member => (later.producers edge).mpr (known edge member)
  | idle | answered response => trivial

/-- What the first step of `Repartition` is and does: it fails, or removes the subscriptions. -/
inductive Begins (n : IceFlow μ) (request : RepartitionRequest) :
    Handler μ × IceFlow μ → Prop where
  | unknown (missing : n.iceflowConsumers.lookup request.edgeName = none) :
      Begins n request (failed request, n)
  | found (consumer : IceflowConsumer μ) (n' : IceFlow μ)
      (held : n.iceflowConsumers.lookup request.edgeName = some consumer)
      (emptied : n.Repartitioned request.edgeName consumer [] [] n') :
      Begins n request (.subscribing request
        (partitionRange request.lowerPartitionBound request.upperPartitionBound), n')

theorem begins {n : IceFlow μ} (wf : WellFormed n) (request : RepartitionRequest) :
    Begins n request (repartition n request) := by
  cases found : n.iceflowConsumers.lookup request.edgeName with
  | none =>
    simp only [repartition, found]
    exact .unknown found
  | some consumer =>
    obtain ⟨_, added, done⟩ := repartitionConsumer_known wf found []
    have same : (repartition n request).2 = (n.repartitionConsumer request.edgeName []).2 := by
      simp only [repartition, repartitionConsumer, found]
      rfl
    have nothing : added = [] := by
      have length := done.length
      rw [requested_nil] at length
      exact List.eq_nil_of_length_eq_zero length
    subst nothing
    rw [← same] at done
    simp only [repartition, found] at done ⊢
    exact .found consumer _ found done

/-- What the next step of a handler is and does: nothing to the node, one more subscription, or
a copy of a consumer, or its destructor. -/
inductive Proceeds (n : IceFlow μ) (now : Int) : Handler μ → Handler μ × IceFlow μ → Prop where
  | resting (handler : Handler μ)
      (ended : handler = .idle ∨ ∃ response, handler = .answered response) :
      Proceeds n now handler (handler, n)
  | returned (request : RepartitionRequest) :
      Proceeds n now (.subscribing request []) (repartitioned request, n)
  | refused (request : RepartitionRequest) (partition : UInt32) (rest : List UInt32)
      (unparsed : Platform.nameOfUri (n.topicOf request.edgeName) = none) :
      Proceeds n now (.subscribing request (partition :: rest)) (repartitioned request, n)
  | subscribed (request : RepartitionRequest) (partition : UInt32) (rest : List UInt32)
      (consumer : IceflowConsumer μ) (topic : Name) (handle : Handle) (n' : IceFlow μ)
      (found : n.iceflowConsumers.lookup request.edgeName = some consumer)
      (joined : n.Joined request.edgeName consumer topic partition handle n') :
      Proceeds n now (.subscribing request (partition :: rest)) (.subscribing request rest, n')
  | consumersDone (consumerStats : StringMap EdgeConsumptionStats) :
      Proceeds n now (.consumers [] consumerStats)
        (.producers n.iceflowProducers.keys consumerStats ∅, n)
  | copied (edge : String) (rest : List String) (consumerStats : StringMap EdgeConsumptionStats)
      (consumer : IceflowConsumer μ) (found : n.iceflowConsumers.lookup edge = some consumer) :
      Proceeds n now (.consumers (edge :: rest) consumerStats)
        (.asking edge rest consumerStats consumer, n)
  | released (edge : String) (rest : List String) (consumerStats : StringMap EdgeConsumptionStats)
      (consumer : IceflowConsumer μ) (n' : IceFlow μ)
      (destroyed : n.Released consumer.subscriptionHandles n') :
      Proceeds n now (.asking edge rest consumerStats consumer)
        (.consumers rest (consumerStats.emplace edge (consumer.getConsumptionStats now).1), n')
  | producersDone (consumerStats : StringMap EdgeConsumptionStats)
      (producerStats : StringMap EdgeProductionStats) :
      Proceeds n now (.producers [] consumerStats producerStats)
        (.answered (.queryStats .ok (encodeStats consumerStats producerStats)), n)
  | asked (edge : String) (rest : List String) (consumerStats : StringMap EdgeConsumptionStats)
      (producerStats : StringMap EdgeProductionStats) (producer : IceflowProducer)
      (found : n.iceflowProducers.lookup edge = some producer) :
      Proceeds n now (.producers (edge :: rest) consumerStats producerStats)
        (.producers rest consumerStats
          (producerStats.emplace edge (producer.getProductionStats now).1), n)

theorem proceeds {n : IceFlow μ} (wf : WellFormed n) (now : Int) {handler : Handler μ}
    (known : handler.Known n) : Proceeds n now handler (proceed n now handler) := by
  cases handler with
  | idle => exact .resting _ (Or.inl rfl)
  | answered response => exact .resting _ (Or.inr ⟨response, rfl⟩)
  | subscribing request partitions =>
    cases partitions with
    | nil => exact .returned request
    | cons partition rest =>
      obtain ⟨consumer, found⟩ := StringMap.mem_iff_lookup.mp known
      have subscribes := subscribeToTopicPartition_known wf found partition
      cases made : consumer.subscribeToTopicPartition n.svsPubSub partition with
      | error e =>
        rw [made] at subscribes
        simp only [proceed, found, made, subscribes.1, if_true]
        exact .refused request partition rest subscribes.2
      | ok next =>
        rw [made] at subscribes
        obtain ⟨topic, handle, joined⟩ := subscribes
        simp only [proceed, found, made]
        exact .subscribed request partition rest consumer topic handle _ found joined
  | consumers edges consumerStats =>
    cases edges with
    | nil => exact .consumersDone consumerStats
    | cons edge rest =>
      obtain ⟨consumer, found⟩ := StringMap.mem_iff_lookup.mp (known edge List.mem_cons_self)
      simp only [proceed, found]
      exact .copied edge rest consumerStats consumer found
  | asking edge rest consumerStats consumer =>
    exact .released edge rest consumerStats consumer _ (released_of_copy wf consumer now)
  | producers edges consumerStats producerStats =>
    cases edges with
    | nil => exact .producersDone consumerStats producerStats
    | cons edge rest =>
      obtain ⟨producer, found⟩ := StringMap.mem_iff_lookup.mp (known edge List.mem_cons_self)
      simp only [proceed, found]
      exact .asked edge rest consumerStats producerStats producer found

theorem Begins.later {n : IceFlow μ} {request : RepartitionRequest}
    {next : Handler μ × IceFlow μ} (begins : Begins n request next) : Later n next.2 := by
  cases begins with
  | unknown missing => exact .refl n
  | found consumer n' held emptied => exact emptied.later held

theorem Begins.wellFormed {n : IceFlow μ} (wf : WellFormed n) {request : RepartitionRequest}
    {next : Handler μ × IceFlow μ} (begins : Begins n request next) : WellFormed next.2 := by
  cases begins with
  | unknown missing => exact wf
  | found consumer n' held emptied => exact emptied.wellFormed held wf

theorem Begins.known {n : IceFlow μ} {request : RepartitionRequest}
    {next : Handler μ × IceFlow μ} (begins : Begins n request next) : next.1.Known next.2 := by
  cases begins with
  | unknown missing => trivial
  | found consumer n' held emptied =>
    exact (emptied.later held |>.consumers _).mpr (StringMap.mem_of_lookup held)

theorem Proceeds.later {n : IceFlow μ} {now : Int} {handler : Handler μ}
    {next : Handler μ × IceFlow μ} (proceeds : Proceeds n now handler next) : Later n next.2 := by
  cases proceeds with
  | subscribed request partition rest consumer topic handle n' found joined =>
    exact joined.later found
  | released edge rest consumerStats consumer n' destroyed => exact destroyed.later
  | _ => exact .refl n

theorem Proceeds.wellFormed {n : IceFlow μ} (wf : WellFormed n) {now : Int} {handler : Handler μ}
    {next : Handler μ × IceFlow μ} (proceeds : Proceeds n now handler next) :
    WellFormed next.2 := by
  cases proceeds with
  | subscribed request partition rest consumer topic handle n' found joined =>
    exact joined.wellFormed found wf
  | released edge rest consumerStats consumer n' destroyed => exact destroyed.wellFormed wf
  | _ => exact wf

theorem Proceeds.known {n : IceFlow μ} (wf : WellFormed n) {now : Int} {handler : Handler μ}
    (known : handler.Known n) {next : Handler μ × IceFlow μ}
    (proceeds : Proceeds n now handler next) : next.1.Known next.2 := by
  have later := proceeds.later
  cases proceeds with
  | resting handler ended => exact known
  | returned | refused | producersDone => trivial
  | subscribed => exact (later.consumers _).mpr known
  | consumersDone consumerStats => exact fun edge member => AList.mem_keys.mp member
  | copied edge rest consumerStats consumer found =>
    exact ⟨fun e member => known e (List.mem_cons_of_mem _ member), .of_lookup wf found⟩
  | released => exact fun e member => (later.consumers e).mpr (known.1 e member)
  | asked => exact fun e member => known e (List.mem_cons_of_mem _ member)

/-- How many of its own steps a handler has ahead of it, at a node with so many producers. -/
def remaining (producers : Nat) : Handler μ → Nat
  | .idle | .answered _ => 0
  | .subscribing _ partitions => partitions.length + 1
  | .consumers edges _ => 2 * edges.length + producers + 2
  | .asking _ edges _ _ => 2 * edges.length + producers + 3
  | .producers edges _ _ => edges.length + 1

/-- Whatever else has happened, a step of a handler brings it closer to its answer. -/
theorem Proceeds.remaining {n : IceFlow μ} {now : Int} {handler : Handler μ}
    {next : Handler μ × IceFlow μ} (proceeds : Proceeds n now handler next) :
    next.1.remaining n.iceflowProducers.keys.length ≤
      handler.remaining n.iceflowProducers.keys.length - 1 := by
  cases proceeds with
  | resting handler ended => rcases ended with rfl | ⟨response, rfl⟩ <;> exact Nat.le_refl 0
  | _ =>
    simp only [Handler.remaining, repartitioned, List.length_cons, List.length_nil]
    omega

theorem answered_of_remaining {producers : Nat} {handler : Handler μ} (busy : handler ≠ .idle)
    (done : handler.remaining producers = 0) : ∃ response, handler = .answered response := by
  cases handler with
  | idle => contradiction
  | answered response => exact ⟨response, rfl⟩
  | _ => simp [remaining] at done

theorem Proceeds.busy {n : IceFlow μ} {now : Int} {handler : Handler μ}
    {next : Handler μ × IceFlow μ} (busy : handler ≠ .idle)
    (proceeds : Proceeds n now handler next) : next.1 ≠ .idle := by
  cases proceeds <;> first | exact busy | simp [repartitioned]

end Handler

/-- The node and the handlers that run in its process, each under a name of its own. -/
structure Handling (κ μ : Type) [Platform] where
  node : IceFlow μ
  handler : κ → Handler μ

namespace Handling

inductive Step (κ μ : Type) [Platform] where
  | repartition (t : κ) (request : RepartitionRequest)
  | queryStats (t : κ)
  /-- A handler takes its next step. -/
  | proceed (t : κ) (now : Int)
  | node (op : Op μ)

/-- A step of this handler after its first one. -/
def Step.continues [DecidableEq κ] (t : κ) : Step κ μ → Bool
  | .proceed u _ => u = t
  | _ => false

def initial (n : IceFlow μ) : Handling κ μ := ⟨n, fun _ => .idle⟩

variable [DecidableEq κ]

def move (s : Handling κ μ) (t : κ) (next : Handler μ × IceFlow μ) : Handling κ μ :=
  ⟨next.2, Function.update s.handler t next.1⟩

def perform (s : Handling κ μ) : Step κ μ → Handling κ μ
  | .repartition t request =>
    match s.handler t with
    | .idle => s.move t (Handler.repartition s.node request)
    | _ => s
  | .queryStats t =>
    match s.handler t with
    | .idle => s.move t (Handler.queryStats s.node, s.node)
    | _ => s
  | .proceed t now => s.move t (Handler.proceed s.node now (s.handler t))
  | .node op => { s with node := op.perform s.node }

abbrev run (n : IceFlow μ) (steps : List (Step κ μ)) : Handling κ μ :=
  Transition.run perform (initial n) steps

theorem run_concat (n : IceFlow μ) (steps : List (Step κ μ)) (step : Step κ μ) :
    run n (steps ++ [step]) = (run n steps).perform step :=
  Transition.run_append perform (initial n) steps [step]

theorem run_append (n : IceFlow μ) (first second : List (Step κ μ)) :
    run n (first ++ second) = Transition.run perform (run n first) second :=
  Transition.run_append perform (initial n) first second

inductive Acts (s : Handling κ μ) : Step κ μ → Handling κ μ → Prop where
  | busy (t : κ) (step : Step κ μ)
      (first : step = .queryStats t ∨ ∃ request, step = .repartition t request)
      (busy : s.handler t ≠ .idle) : Acts s step s
  | begins (t : κ) (request : RepartitionRequest) (next : Handler μ × IceFlow μ)
      (idle : s.handler t = .idle) (begins : Handler.Begins s.node request next) :
      Acts s (.repartition t request) (s.move t next)
  | queries (t : κ) (idle : s.handler t = .idle) :
      Acts s (.queryStats t) (s.move t (Handler.queryStats s.node, s.node))
  | proceeds (t : κ) (now : Int) (next : Handler μ × IceFlow μ)
      (proceeds : Handler.Proceeds s.node now (s.handler t) next) :
      Acts s (.proceed t now) (s.move t next)
  | operates (op : Op μ) : Acts s (.node op) { s with node := op.perform s.node }

/-- The node is well-formed, and handlers know what they need of it. -/
structure Sound (s : Handling κ μ) : Prop where
  wellFormed : WellFormed s.node
  known : ∀ t, (s.handler t).Known s.node

theorem Sound.acts {s : Handling κ μ} (sound : Sound s) (step : Step κ μ) :
    Acts s step (s.perform step) := by
  cases step with
  | repartition t request =>
    simp only [perform]
    split
    · rename_i idle
      exact .begins t request _ idle (Handler.begins sound.wellFormed request)
    · rename_i busy
      exact .busy t _ (Or.inr ⟨request, rfl⟩) busy
  | queryStats t =>
    simp only [perform]
    split
    · rename_i idle
      exact .queries t idle
    · rename_i busy
      exact .busy t _ (Or.inl rfl) busy
  | proceed t now =>
    exact .proceeds t now _ (Handler.proceeds sound.wellFormed now (sound.known t))
  | node op => exact .operates op

theorem Acts.later {s s' : Handling κ μ} (wf : WellFormed s.node) {step : Step κ μ}
    (acts : Acts s step s') : Later s.node s'.node := by
  cases acts with
  | busy => exact .refl s.node
  | begins t request next idle begins => exact begins.later
  | queries t idle => exact .refl s.node
  | proceeds t now next proceeds => exact proceeds.later
  | operates op => exact later_perform wf op

theorem Sound.move {s : Handling κ μ} (sound : Sound s) (t : κ) {next : Handler μ × IceFlow μ}
    (later : Later s.node next.2) (wf : WellFormed next.2) (known : next.1.Known next.2) :
    Sound (s.move t next) := by
  refine ⟨wf, fun other => ?_⟩
  by_cases same : other = t
  · subst same
    simpa only [Handling.move, Function.update_self] using known
  · simpa only [Handling.move, Function.update_of_ne same] using (sound.known other).later later

theorem Acts.sound {s s' : Handling κ μ} (sound : Sound s) {step : Step κ μ}
    (acts : Acts s step s') : Sound s' := by
  have wf := sound.wellFormed
  cases acts with
  | busy => exact sound
  | begins t request next idle begins =>
    exact sound.move t begins.later (begins.wellFormed wf) begins.known
  | queries t idle => exact sound.move t (.refl _) wf (fun edge member => AList.mem_keys.mp member)
  | proceeds t now next proceeds =>
    exact sound.move t proceeds.later (proceeds.wellFormed wf) (proceeds.known wf (sound.known t))
  | operates op =>
    exact ⟨wellFormed_perform wf op, fun t => (sound.known t).later (later_perform wf op)⟩

theorem run_sound {n₀ : IceFlow μ} (constructed : n₀.Constructed) (steps : List (Step κ μ)) :
    Sound (run n₀ steps) :=
  Transition.run_invariant (fun _ step sound => (sound.acts step).sound sound)
    ⟨constructed.wellFormed, fun _ => trivial⟩ steps

theorem run_later {n₀ : IceFlow μ} (constructed : n₀.Constructed) (steps : List (Step κ μ)) :
    Later n₀ (run n₀ steps).node := by
  induction steps using List.reverseRecOn with
  | nil => exact .refl n₀
  | append_singleton steps step ih =>
    rw [run_concat]
    have sound := run_sound constructed steps
    exact ih.trans ((sound.acts step).later sound.wellFormed)

/-- A handler that has begun takes its steps only. -/
theorem handler_perform {s : Handling κ μ} {t : κ} (busy : s.handler t ≠ .idle)
    {step : Step κ μ} (other : ∀ now, step ≠ .proceed t now) :
    (s.perform step).handler t = s.handler t := by
  have kept {u : κ} (next : Handler μ × IceFlow μ) (different : t ≠ u) :
      (s.move u next).handler t = s.handler t := by
    simp only [move, Function.update_of_ne different]
  cases step with
  | repartition u request | queryStats u =>
    simp only [perform]
    split
    · rename_i idle
      exact kept _ (fun same => busy (same ▸ idle))
    · rfl
  | proceed u now => exact kept _ (fun same => other now (same ▸ rfl))
  | node op => rfl

theorem run_remaining {n₀ : IceFlow μ} (constructed : n₀.Constructed) {begun : List (Step κ μ)}
    {t : κ} (busy : (run n₀ begun).handler t ≠ .idle) (rest : List (Step κ μ)) :
    (run n₀ (begun ++ rest)).handler t ≠ .idle ∧
      ((run n₀ (begun ++ rest)).handler t).remaining n₀.iceflowProducers.keys.length ≤
        ((run n₀ begun).handler t).remaining n₀.iceflowProducers.keys.length -
          rest.countP (Step.continues t) := by
  induction rest using List.reverseRecOn with
  | nil => simpa using busy
  | append_singleton rest step ih =>
    obtain ⟨busy, fewer⟩ := ih
    have sound := run_sound constructed (begun ++ rest)
    have producers := StringMap.length_keys (run_later constructed (begun ++ rest)).producers
    rw [← List.append_assoc, run_concat, List.countP_append]
    by_cases own : ∃ now, step = .proceed t now
    · obtain ⟨now, rfl⟩ := own
      have proceeds := Handler.proceeds sound.wellFormed now (sound.known t)
      have lowered := proceeds.remaining
      rw [producers] at lowered
      have counted : [Step.proceed (μ := μ) t now].countP (Step.continues t) = 1 := by
        simp [Step.continues]
      simp only [perform, move, Function.update_self, counted]
      exact ⟨proceeds.busy busy, by omega⟩
    · have counted : [step].countP (Step.continues t) = 0 := by
        rw [List.countP_singleton, if_neg]
        intro continues
        unfold Step.continues at continues
        split at continues
        · rename_i u now
          exact own ⟨now, by rw [of_decide_eq_true continues]⟩
        · contradiction
      rw [counted, Nat.add_zero, handler_perform busy (fun now same => own ⟨now, same⟩)]
      exact ⟨busy, fewer⟩

/-- A handler answers when it has taken its steps, however many others come between them. -/
theorem run_answers {n₀ : IceFlow μ} (constructed : n₀.Constructed) {begun : List (Step κ μ)}
    {t : κ} (busy : (run n₀ begun).handler t ≠ .idle) {rest : List (Step κ μ)}
    (enough : ((run n₀ begun).handler t).remaining n₀.iceflowProducers.keys.length ≤
      rest.countP (Step.continues t)) :
    ∃ response, (run n₀ (begun ++ rest)).handler t = .answered response := by
  obtain ⟨busy, fewer⟩ := run_remaining constructed busy rest
  rw [Nat.sub_eq_zero_of_le enough] at fewer
  exact Handler.answered_of_remaining busy (Nat.le_zero.mp fewer)

end Handling
end NodeInstanceService
end Iceflow
