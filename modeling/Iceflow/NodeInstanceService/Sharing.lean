import Iceflow.Foundation.Ledger
import Iceflow.Node.Received
import Iceflow.NodeInstanceService.Handlers
import Iceflow.WordCount

/-! The subscriptions of a consumer under any interleaving of handlers and operations. They
are what a ledger of the steps counts, so two Repartitions that overlap can leave what both
have asked for, and one that no other step disturbs leaves what it asked for, whatever has
overlapped before. -/
namespace Iceflow
open IceFlow Sharing

section
variable [Platform] {κ μ : Type}

namespace NodeInstanceService

/-- The handles that a handler has of the consumer of an edge. -/
def Handler.copyOf (edge : String) : Handler μ → Option (List Handle)
  | .asking e _ _ consumer => if e = edge then some consumer.subscriptionHandles else none
  | _ => none

namespace Handling

def copyOf (s : Handling κ μ) (edge : String) (t : κ) : Option (List Handle) :=
  (s.handler t).copyOf edge

/-- What a step does to the subscriptions of the consumer of an edge. -/
def touch (s : Handling κ μ) (edge : String) : Step κ μ → Option (Touch κ Subscription)
  | .repartition t request =>
    match s.handler t with
    | .idle => if request.edgeName = edge then some (.replaced []) else none
    | _ => none
  | .queryStats _ => none
  | .proceed t _ =>
    match s.handler t with
    | .subscribing request (partition :: _) =>
      if request.edgeName = edge then some (.added (s.node.requested edge [partition])) else none
    | .consumers (e :: _) _ => if e = edge then some (.copied t) else none
    | .asking e _ _ _ => if e = edge then some (.released t) else none
    | _ => none
  | .node (.call (.repartitionConsumer e partitions)) =>
    if e = edge then some (.replaced (s.node.requested edge partitions)) else none
  | .node (.call (.getConsumerStats _)) => some (.replaced [])
  | .node _ => none

theorem Sound.copied {s : Handling κ μ} (sound : Sound s) {edge : String} {t : κ}
    {copy : List Handle} (held : s.copyOf edge t = some copy) : s.node.Copied edge copy := by
  have known := sound.known t
  unfold copyOf Handler.copyOf at held
  split at held
  · rename_i same
    rw [same] at known
    split at held
    · rename_i here
      cases held
      exact here ▸ known.2
    · contradiction
  · contradiction

variable [DecidableEq κ]

def ledger (n : IceFlow μ) (edge : String) (steps : List (Step κ μ)) : Ledger κ Subscription :=
  ((Transition.steps perform (initial n) steps).filterMap (fun x => x.1.touch edge x.2)).foldl
    Ledger.apply .empty

theorem ledger_concat (n : IceFlow μ) (edge : String) (steps : List (Step κ μ))
    (step : Step κ μ) :
    ledger n edge (steps ++ [step]) =
      ((run n steps).touch edge step).toList.foldl Ledger.apply (ledger n edge steps) := by
  rw [ledger, Transition.steps_append, List.filterMap_append, List.foldl_append, ledger]
  simp only [Transition.steps, List.filterMap_cons, List.filterMap_nil]
  cases (run n steps).touch edge step <;> rfl

theorem copyOf_move (s : Handling κ μ) (edge : String) (t : κ) (next : Handler μ × IceFlow μ) :
    (s.move t next).copyOf edge = Function.update (s.copyOf edge) t (next.1.copyOf edge) := by
  funext other
  by_cases same : other = t
  · subst same
    simp [copyOf, move]
  · simp [copyOf, move, same]

variable {s s' : Handling κ μ} {edge : String} {account : Ledger κ Subscription}
  {table : List (Handle × Subscription)}

theorem describes_move (describes : Describes account table (s.copyOf edge)) (t : κ)
    {next : Handler μ × IceFlow μ} (unheld : next.1.copyOf edge = none) :
    Describes account table ((s.move t next).copyOf edge) := by
  apply describes.anti
  intro other copy held
  rw [copyOf_move, unheld] at held
  by_cases same : other = t
  · subst same
    simp at held
  · rwa [Function.update_of_ne same] at held

theorem describes_begins {request : RepartitionRequest} {next : Handler μ × IceFlow μ} {t : κ}
    (known : edge ∈ s.node.iceflowConsumers) (idle : s.handler t = .idle)
    (begins : Handler.Begins s.node request next)
    (describes : Describes account (s.node.subscriptionsOf edge) (s.copyOf edge)) :
    Describes ((s.touch edge (.repartition t request)).toList.foldl Ledger.apply account)
      (next.2.subscriptionsOf edge) ((s.move t next).copyOf edge) := by
  simp only [touch, idle]
  cases begins with
  | unknown missing =>
    have other : request.edgeName ≠ edge := by
      rintro rfl
      exact AList.lookup_eq_none.mp missing known
    rw [if_neg other]
    exact describes_move describes t rfl
  | found consumer n' held emptied =>
    split
    · rename_i here
      have nothing : n'.subscriptionsOf edge = [] := by
        rw [← here, emptied.subscriptionsOf_same, List.zip_nil_left]
      have cleared : Describes (account.apply (.replaced [])) ([] : List (Handle × Subscription))
          (s.copyOf edge) := .replaced account (fun _ _ _ _ => List.not_mem_nil.elim)
      rw [nothing]
      exact describes_move cleared t rfl
    · rename_i other
      rw [emptied.subscriptionsOf_other (Ne.symm other)]
      exact describes_move describes t rfl

theorem describes_proceeds {t : κ} {now : Int} {next : Handler μ × IceFlow μ} (sound : Sound s)
    (proceeds : Handler.Proceeds s.node now (s.handler t) next)
    (describes : Describes account (s.node.subscriptionsOf edge) (s.copyOf edge)) :
    Describes ((s.touch edge (.proceed t now)).toList.foldl Ledger.apply account)
      (next.2.subscriptionsOf edge) ((s.move t next).copyOf edge) := by
  have wf := sound.wellFormed
  simp only [touch]
  generalize at_t : s.handler t = handler at proceeds
  cases proceeds with
  | resting handler ended =>
    rcases ended with rfl | ⟨response, rfl⟩ <;> exact describes_move describes t rfl
  | returned request => exact describes_move describes t rfl
  | refused request partition rest unparsed =>
    dsimp only
    split
    · rename_i here
      have nothing : s.node.requested edge [partition] = [] := by
        simp [IceFlow.requested, ← here, unparsed]
      have same : account.apply (.added []) = account := by
        rw [Ledger.apply, List.append_nil]
      rw [nothing, Option.toList_some, List.foldl_cons, List.foldl_nil, same]
      exact describes_move describes t rfl
    · exact describes_move describes t rfl
  | subscribed request partition rest consumer topic handle n' found joined =>
    dsimp only
    rw [joined.subscriptionsOf]
    split
    · rename_i here
      subst here
      have made : s.node.requested request.edgeName [partition] =
          [IceflowConsumer.subscriptionFor topic request.edgeName partition] := by
        simp [IceFlow.requested, joined.parsed]
      rw [made, if_pos rfl]
      have fresh (holder : κ) (copy : List Handle)
          (held : s.copyOf request.edgeName holder = some copy) :
          ∀ entry ∈ [(handle, IceflowConsumer.subscriptionFor topic request.edgeName partition)],
            entry.1 ∉ copy := by
        intro entry member
        rw [List.mem_singleton.mp member]
        exact fun reused => joined.fresh ((sound.copied held).issued _ reused)
      exact describes_move (describes.added fresh) t rfl
    · rename_i other
      rw [if_neg (Ne.symm other), List.append_nil]
      exact describes_move describes t rfl
  | consumersDone consumerStats => exact describes_move describes t rfl
  | copied e rest consumerStats consumer found =>
    dsimp only
    split
    · rename_i here
      subst here
      have handles : s.node.handles e = consumer.subscriptionHandles := by
        simp [IceFlow.handles, found]
      rw [copyOf_move, Handler.copyOf, if_pos rfl]
      apply describes.copied
      intro entry member
      rw [IceFlow.subscriptionsOf, List.mem_filter, decide_eq_true_eq] at member
      rw [← handles]
      exact wf.held entry member.1 e member.2
    · rename_i other
      exact describes_move describes t (if_neg other)
  | released e rest consumerStats consumer n' destroyed =>
    have held : s.copyOf e t = some consumer.subscriptionHandles := by
      rw [copyOf, at_t, Handler.copyOf, if_pos rfl]
    dsimp only
    split
    · rename_i here
      subst here
      rw [copyOf_move, destroyed.subscriptionsOf]
      exact describes.released held
    · rename_i other
      rw [destroyed.subscriptionsOf_other (sound.copied held) (Ne.symm other)]
      exact describes_move describes t rfl
  | producersDone consumerStats producerStats => exact describes_move describes t rfl
  | asked e rest consumerStats producerStats producer found => exact describes_move describes t rfl

omit [DecidableEq κ] in
theorem touch_other (s : Handling κ μ) {op : Op μ}
    (other : op.repartitionsConsumer edge = false) :
    s.touch edge (.node op) = if op.queriesConsumers then some (.replaced []) else none := by
  cases op with
  | deliver handle item now => rfl
  | call c =>
    cases c with
    | repartitionConsumer e partitions => exact if_neg (by simpa [Op.repartitionsConsumer] using other)
    | _ => rfl

theorem describes_operates (sound : Sound s) (known : edge ∈ s.node.iceflowConsumers) (op : Op μ)
    (describes : Describes account (s.node.subscriptionsOf edge) (s.copyOf edge)) :
    Describes ((s.touch edge (.node op)).toList.foldl Ledger.apply account)
      ((op.perform s.node).subscriptionsOf edge) (s.copyOf edge) := by
  have wf := sound.wellFormed
  by_cases here : ∃ partitions, op = .call (.repartitionConsumer edge partitions)
  · obtain ⟨partitions, rfl⟩ := here
    obtain ⟨consumer, found⟩ := StringMap.mem_iff_lookup.mp known
    obtain ⟨_, added, done⟩ := repartitionConsumer_known wf found partitions
    have served := done.subscriptionsOf_same
    have made : (added.zip (s.node.requested edge partitions)).map Prod.snd =
        s.node.requested edge partitions :=
      List.map_snd_zip (Nat.le_of_eq done.length.symm)
    have touched : s.touch edge (.node (.call (.repartitionConsumer edge partitions))) =
        some (.replaced (s.node.requested edge partitions)) := if_pos rfl
    rw [touched, ← made]
    simp only [Op.perform, Call.perform]
    rw [served]
    apply Describes.replaced account
    intro holder copy held entry member
    have fresh := done.fresh entry.1 (List.of_mem_zip member).1
    exact fun reused => fresh ((sound.copied held).issued _ reused)
  · have other : op.repartitionsConsumer edge = false := by
      unfold Op.repartitionsConsumer
      split
      · rename_i e partitions
        rw [decide_eq_false_iff_not]
        rintro rfl
        exact here ⟨partitions, rfl⟩
      · rfl
    rw [touch_other s other, subscriptionsOf_perform wf other]
    split
    · exact .replaced account (fun _ _ _ _ => List.not_mem_nil.elim)
    · exact describes

theorem Acts.describes (sound : Sound s) (known : edge ∈ s.node.iceflowConsumers)
    {step : Step κ μ} (acts : Acts s step s')
    (describes : Describes account (s.node.subscriptionsOf edge) (s.copyOf edge)) :
    Describes ((s.touch edge step).toList.foldl Ledger.apply account)
      (s'.node.subscriptionsOf edge) (s'.copyOf edge) := by
  cases acts with
  | busy t step first busy =>
    have untouched : s.touch edge step = none := by
      rcases first with rfl | ⟨request, rfl⟩
      · rfl
      · simp only [touch]
    rw [untouched]
    exact describes
  | begins t request next idle begins => exact describes_begins known idle begins describes
  | queries t idle => exact describes_move describes t rfl
  | proceeds t now next proceeds => exact describes_proceeds sound proceeds describes
  | operates op => exact describes_operates sound known op describes

theorem run_describes {n₀ : IceFlow μ} (constructed : n₀.Constructed) {edge : String}
    (known : edge ∈ n₀.iceflowConsumers) (steps : List (Step κ μ)) :
    Describes (ledger n₀ edge steps) ((run n₀ steps).node.subscriptionsOf edge)
      ((run n₀ steps).copyOf edge) := by
  induction steps using List.reverseRecOn with
  | nil =>
    have nothing : n₀.subscriptionsOf edge = [] := constructed.subscriptionsOf_eq_nil
    change Describes .empty (n₀.subscriptionsOf edge) _
    rw [nothing]
    exact .empty (fun _ => rfl)
  | append_singleton steps step ih =>
    have sound := run_sound constructed steps
    have present := ((run_later constructed steps).consumers edge).mpr known
    rw [run_concat, ledger_concat]
    exact (sound.acts step).describes sound present ih

/-- How far a Repartition is that no other step disturbs. -/
inductive Progress (n : IceFlow μ) (request : RepartitionRequest) :
    Handler μ → List Subscription → Prop where
  | subscribing (done rest : List UInt32) (range : done ++ rest =
        partitionRange request.lowerPartitionBound request.upperPartitionBound) :
      Progress n request (.subscribing request rest) (n.requested request.edgeName done)
  | returned : Progress n request (Handler.repartitioned request)
      (n.requested request.edgeName
        (partitionRange request.lowerPartitionBound request.upperPartitionBound))

theorem requested_later {n n' : IceFlow μ} (later : Later n n') (edge : String)
    (partitions : List UInt32) : n'.requested edge partitions = n.requested edge partitions := by
  rw [IceFlow.requested, IceFlow.requested, later.topicOf]

theorem Progress.proceed {n : IceFlow μ} {request : RepartitionRequest} {t : κ} (sound : Sound s)
    (later : Later n s.node) {account : Ledger κ Subscription}
    (progress : Progress n request (s.handler t) account.entries) (now : Int) :
    Progress n request (Handler.proceed s.node now (s.handler t)).1
      ((s.touch request.edgeName (.proceed t now)).toList.foldl Ledger.apply account).entries := by
  have proceeds := Handler.proceeds sound.wellFormed now (sound.known t)
  simp only [touch]
  generalize s.handler t = handler at progress proceeds ⊢
  generalize Handler.proceed s.node now handler = next at proceeds ⊢
  generalize same : account.entries = entries at progress
  cases progress with
  | subscribing done rest range =>
    cases proceeds with
    | resting handler ended => simp at ended
    | returned request =>
      rw [List.append_nil] at range
      rw [range] at same
      change Progress n request _ account.entries
      rw [same]
      exact .returned
    | refused request partition rest unparsed =>
      have nothing (partitions : List UInt32) : n.requested request.edgeName partitions = [] := by
        rw [IceFlow.requested, ← later.topicOf, unparsed]
      have empty : account.entries = [] := by rw [same, nothing]
      simp only [if_pos, requested_later later, nothing, Option.toList_some, List.foldl_cons,
        List.foldl_nil, Ledger.apply, empty, List.append_nil]
      have ended : Progress n request _ _ := .returned
      rwa [nothing] at ended
    | subscribed request partition rest consumer topic handle n' found joined =>
      simp only [if_pos, requested_later later, Option.toList_some, List.foldl_cons,
        List.foldl_nil, Ledger.apply, same, ← requested_append]
      exact .subscribing (done ++ [partition]) rest (by rw [← range]; simp)
  | returned =>
    cases proceeds
    change Progress n request _ account.entries
    rw [same]
    exact .returned

theorem run_progress {n₀ : IceFlow μ} (constructed : n₀.Constructed)
    {request : RepartitionRequest} (known : request.edgeName ∈ n₀.iceflowConsumers)
    {before during : List (Step κ μ)} {t : κ} (idle : (run n₀ before).handler t = .idle)
    (undisturbed : ∀ x ∈ Transition.steps perform (run n₀ (before ++ [.repartition t request]))
      during, ∀ touch, x.1.touch request.edgeName x.2 = some touch → ∃ now, x.2 = .proceed t now) :
    Progress n₀ request ((run n₀ (before ++ .repartition t request :: during)).handler t)
      (ledger n₀ request.edgeName (before ++ .repartition t request :: during)).entries := by
  induction during using List.reverseRecOn with
  | nil =>
    have begins := Handler.begins (run_sound constructed before).wellFormed request
    have present := ((run_later constructed before).consumers _).mpr known
    rw [run_concat, ledger_concat]
    simp only [perform, touch, idle, if_pos, move, Function.update_self, Option.toList_some,
      List.foldl_cons, List.foldl_nil, Ledger.apply]
    generalize Handler.repartition (run n₀ before).node request = next at begins ⊢
    cases begins with
    | unknown missing => exact absurd present (AList.lookup_eq_none.mp missing)
    | found consumer n' held emptied =>
      have progress : Progress n₀ request (.subscribing request _ : Handler μ) _ :=
        .subscribing [] _ (List.nil_append _)
      rwa [requested_nil] at progress
  | append_singleton during step ih =>
    have sound := run_sound constructed (before ++ .repartition t request :: during)
    have later := run_later constructed (before ++ .repartition t request :: during)
    rw [Transition.steps_append, ← run_append, ← List.append_cons] at undisturbed
    have progress := ih (fun x member => undisturbed x (List.mem_append_left _ member))
    have last := undisturbed (_, step) (List.mem_append_right _ List.mem_cons_self)
    rw [← List.cons_append, ← List.append_assoc, run_concat, ledger_concat]
    by_cases own : ∃ now, step = .proceed t now
    · obtain ⟨now, rfl⟩ := own
      have next := progress.proceed sound later now
      simpa only [perform, move, Function.update_self] using next
    · have untouched : (run n₀ (before ++ .repartition t request :: during)).touch
          request.edgeName step = none :=
        Option.eq_none_iff_forall_ne_some.mpr (fun touch found => own (last touch found))
      have busy : (run n₀ (before ++ .repartition t request :: during)).handler t ≠ .idle := by
        intro idle
        rw [idle] at progress
        cases progress
      rw [untouched, handler_perform busy (fun now same => own ⟨now, same⟩)]
      exact progress

theorem repartition_answers {n₀ : IceFlow μ} (constructed : n₀.Constructed)
    {before during : List (Step κ μ)} {t : κ} {request : RepartitionRequest}
    (idle : (run n₀ before).handler t = .idle)
    (enough : (partitionRange request.lowerPartitionBound
      request.upperPartitionBound).length < during.countP (Step.continues t)) :
    ∃ response, (run n₀ (before ++ .repartition t request :: during)).handler t =
      .answered response := by
  have begins := Handler.begins (run_sound constructed before).wellFormed request
  have begun : (run n₀ (before ++ [.repartition t request])).handler t =
      (Handler.repartition (run n₀ before).node request).1 := by
    rw [run_concat]
    simp only [perform, idle, move, Function.update_self]
  generalize Handler.repartition (run n₀ before).node request = next at begins begun
  rw [List.append_cons]
  apply run_answers constructed <;> rw [begun] <;> cases begins
  · simp [Handler.failed]
  · simp
  · exact Nat.zero_le _
  · exact enough

/-- What handlers and operations leave of the subscriptions of a consumer. -/
structure Shared (n₀ : IceFlow μ) (edge : String) (steps : List (Step κ μ)) : Prop where
  ledger : ((run n₀ steps).node.subscriptionsOf edge).map Prod.snd =
    (ledger n₀ edge steps).entries
  /-- A Repartition is answered, if its handler takes its steps. -/
  answers : ∀ before t request during,
    steps = before ++ .repartition t request :: during → (run n₀ before).handler t = .idle →
    (partitionRange request.lowerPartitionBound request.upperPartitionBound).length <
      during.countP (Step.continues t) →
    ∃ response, (run n₀ steps).handler t = .answered response
  /-- A Repartition that was answered, while only its own steps touched the subscriptions. -/
  undisturbed : ∀ before t request during response,
    steps = before ++ .repartition t request :: during → request.edgeName = edge →
    (run n₀ before).handler t = .idle →
    (∀ x ∈ Transition.steps perform (run n₀ (before ++ [.repartition t request])) during,
      ∀ touch, x.1.touch edge x.2 = some touch → ∃ now, x.2 = .proceed t now) →
    (run n₀ steps).handler t = .answered response →
    response = .repartition .ok
        ⟨"", true, request.lowerPartitionBound, request.upperPartitionBound⟩ ∧
      ((run n₀ steps).node.subscriptionsOf edge).map Prod.snd = n₀.requested edge
        (partitionRange request.lowerPartitionBound request.upperPartitionBound)

/-- However the steps of handlers and operations of the node interleave. -/
theorem run_shared {n₀ : IceFlow μ} (constructed : n₀.Constructed) {edge : String}
    (known : edge ∈ n₀.iceflowConsumers) (steps : List (Step κ μ)) : Shared n₀ edge steps := by
  have entries := (run_describes constructed known steps).entries
  refine ⟨entries, ?_, ?_⟩
  · rintro before t request during rfl idle enough
    exact repartition_answers constructed idle enough
  rintro before t request during response rfl rfl idle undisturbed answered
  have progress := run_progress constructed known idle undisturbed
  rw [answered] at progress
  rw [entries]
  generalize (Handling.ledger n₀ request.edgeName
    (before ++ .repartition t request :: during)).entries = left at progress ⊢
  cases progress
  exact ⟨rfl, rfl⟩

end Handling
end NodeInstanceService
end

section
open scoped Iceflow.Reference
open WordCount
namespace NodeInstanceService.Handling

/-- Both handlers unsubscribe before any of them subscribes. -/
def overlapping : List (Step Bool Unit) :=
  [.repartition false ⟨"t2l", 0, 1⟩, .repartition true ⟨"t2l", 1, 2⟩, .proceed false 0,
    .proceed true 0, .proceed false 0, .proceed true 0]

/-- Both partitions stay subscribed. -/
theorem shared_overlapping : Shared firstSplitter "t2l" overlapping ∧
    (ledger firstSplitter "t2l" overlapping).entries = firstSplitter.requested "t2l" [0, 1] :=
  ⟨run_shared constructed_firstSplitter (by decide) overlapping, by decide⟩

end NodeInstanceService.Handling
end
end Iceflow
