import Iceflow.Network.Application
import Iceflow.WordCount.Deployment

/-! The word count application as a dataflow of two edges. Its schedules differ in the
partitions that are drawn, in the instances that lines get to and in the order of steps. -/
namespace Iceflow.WordCount
open IceFlow Network

/-- Lines are split, and counted words lead to nothing. -/
def outputs (lineEdge wordEdge : Edge) (edge out : String) (data : Bytes) : List Bytes :=
  if edge = lineEdge.id ∧ out = wordEdge.id then Words.words isspace data else []

namespace Deployment
variable [Platform] {k : Nat} {text : Bytes} (d : Deployment k text)

theorem emits {role : Role k} {c : Call WordCountMap} (called : c ∈ d.calls role) {edge : String}
    {callback : ConsumerCallback WordCountMap}
    (registers : (Op.call c).registers = some (edge, callback)) (out : String) :
    (d.start role).Emits out (outputs d.lineEdge d.wordEdge edge out) callback := by
  cases role with
  | source =>
    rw [d.source_calls] at called
    obtain ⟨line, _, rfl⟩ := List.mem_map.mp called
    cases registers
  | splitter i =>
    obtain ⟨partitions, _, made⟩ := d.splitter_calls i
    rw [made] at called
    rcases List.mem_pair.mp called with rfl | rfl
    · cases registers
      have present : d.wordEdge.id ∈ (d.start (.splitter i)).iceflowProducers :=
        (d.mem_producers _ _).mpr ⟨d.wordEdge, List.mem_cons_self, rfl⟩
      have split : outputs d.lineEdge d.wordEdge d.lineEdge.id out = fun data =>
          if out = d.wordEdge.id then Words.words isspace data else [] := by
        funext data
        simp [outputs]
      rw [split]
      exact (answers_lines2words d.wordEdge.id).emits present out
    · cases registers
  | counter =>
    rw [d.counter_calls] at called
    rcases List.mem_pair.mp called with rfl | rfl
    · cases registers
      have updates : Updates WordCounter.countWord countWordCallback := fun _ _ => rfl
      have none : outputs d.lineEdge d.wordEdge d.wordEdge.id out = fun _ => [] := by
        funext data
        exact if_neg fun both => d.chain.different both.1.symm
      rw [none]
      exact updates.emits out
    · cases registers

theorem application (acyclic : d.dagParser.Acyclic)
    (edges : ∀ edge ∈ d.dagParser.edges, edge = d.lineEdge ∨ edge = d.wordEdge) :
    Application d.dagParser (outputs d.lineEdge d.wordEdge) d.start d.actions where
  acyclic := acyclic
  separated := by
    intro first listed second listed' different
    rcases edges first listed with rfl | rfl <;> rcases edges second listed' with rfl | rfl
    · contradiction
    · exact d.chain.lines
    · exact d.chain.words
    · contradiction
  built role := ⟨role.nodeName, d.environment role, d.built role⟩
  prepared edge _ := d.prepared edge.id
  known role _ _ := d.known role
  tiles := by
    intro edge listed
    simp only [d.called]
    rcases edges edge listed with rfl | rfl
    · exact d.tiles_lines
    · exact d.tiles_words
  emits := by
    intro role c listed edge callback registers out
    rw [d.called role] at listed
    exact d.emits listed registers out

end Deployment

section
open scoped Iceflow.Reference

theorem acyclic_dag : dag.Acyclic :=
  ⟨by decide, fun task => if task = "1" then 0 else if task = "2" then 1 else 2, by decide⟩

theorem edges_dag : ∀ edge ∈ dag.edges,
    edge = ⟨"t2l", "2", 3, []⟩ ∨ edge = ⟨"l2w", "3", 1, []⟩ :=
  fun _ listed => List.mem_pair.mp listed

theorem wordEdge_mem : (⟨"l2w", "3", 1, []⟩ : Edge) ∈ dag.edges :=
  List.mem_cons_of_mem _ List.mem_cons_self

theorem application_processes : Application dag
    (outputs ⟨"t2l", "2", 3, []⟩ ⟨"l2w", "3", 1, []⟩) processes processActions :=
  processDeployment.application acyclic_dag edges_dag

/-- Generators that draw zero. -/
def zeros (role : Role 2) : Environment WordCountMap :=
  { counting role with generator := fun _ => Stream'.const 0 }

theorem drawn_built (role : Role 2) :
    (IceFlow.construct dag role.nodeName (zeros role)).toOption.isSome = true := by
  rcases role with _ | i | _
  · rfl
  · revert i
    exact Fin.forall_fin_two.mpr ⟨rfl, rfl⟩
  · rfl

def drawn (role : Role 2) : IceFlow WordCountMap :=
  (IceFlow.construct dag role.nodeName (zeros role)).toOption.get (drawn_built role)

/-- Both lines get to the first instance of lines2words, the second one when all is done with
the first. -/
def drawnActions : List (Action (Role 2) WordCountMap) :=
  called.map (fun x => .call x.1 x.2) ++
    [lineTo firstInstance 0, wordOf firstInstance 0, lineDone firstInstance 1,
      wordDone firstInstance 0, wordDone otherInstance 0, lineTo firstInstance 1,
      wordOf firstInstance 2, lineDone firstInstance 3, wordDone firstInstance 1,
      wordDone otherInstance 1].map
        (fun h => .deliver h.receiver h.handle h.sender h.index 0)

theorem exactlyOnce_drawn : ExactlyOnce drawn drawnActions := by
  have follows := Follows.calls drawn called
  have follows := follows.deliver (lineTo 0 0) (by decide) (published "t2l" "1" 1 [97])
    (by decide) (by decide) 0
  have follows := follows.deliver (wordOf 0 0) (by decide) (published "l2w" "2" 1 [97])
    (by decide) (by decide) 0
  have follows := follows.deliver (lineDone 0 1) (by decide) (acknowledgement "t2l" "2" 2 [49])
    (by decide) (by decide) 0
  have follows := follows.deliver (wordDone 0 0) (by decide) (acknowledgement "l2w" "4" 1 [49])
    (by decide) (by decide) 0
  have follows := follows.deliver (wordDone 1 0) (by decide) (acknowledgement "l2w" "4" 1 [49])
    (by decide) (by decide) 0
  have follows := follows.deliver (lineTo 0 1) (by decide) (published "t2l" "1" 2 [65])
    (by decide) (by decide) 0
  have follows := follows.deliver (wordOf 0 2) (by decide) (published "l2w" "2" 3 [65])
    (by decide) (by decide) 0
  have follows := follows.deliver (lineDone 0 3) (by decide) (acknowledgement "t2l" "2" 4 [50])
    (by decide) (by decide) 0
  have follows := follows.deliver (wordDone 0 1) (by decide) (acknowledgement "l2w" "4" 2 [51])
    (by decide) (by decide) 0
  have follows := follows.deliver (wordDone 1 1) (by decide) (acknowledgement "l2w" "4" 2 [51])
    (by decide) (by decide) 0
  exact follows.exactlyOnce (Role.all 2) Role.mem_all (by decide) (by decide)

def drawnDeployment : Deployment 2 twoWords :=
  { processDeployment with
    environment := zeros
    memory := rfl
    start := drawn
    source := rfl
    splitter := Fin.forall_fin_two.mpr ⟨⟨4, rfl⟩, ⟨4, rfl⟩⟩
    counter := rfl
    actions := drawnActions
    called := fun role => by
      rcases role with _ | i | _
      · rfl
      · revert i
        exact Fin.forall_fin_two.mpr ⟨rfl, rfl⟩
      · rfl }

theorem application_drawn : Application dag
    (outputs ⟨"t2l", "2", 3, []⟩ ⟨"l2w", "3", 1, []⟩) drawn drawnActions :=
  drawnDeployment.application acyclic_dag edges_dag

theorem flow_eq_denote_drawn : flow drawn drawnActions (Role.all 2) "l2w" =
    Dataflow.Graph.denote (acyclic_dag.graph (outputs ⟨"t2l", "2", 3, []⟩ ⟨"l2w", "3", 1, []⟩)
      (sources drawn drawnActions (Role.all 2))) "l2w" := by
  have denoted := application_drawn.flow_eq_denote exactlyOnce_drawn Role.nodup_all Role.mem_all
    wordEdge_mem
  exact denoted

theorem schedule_independent_drawn :
    flow processes processActions (Role.all 2) "l2w" =
        flow drawn drawnActions (Role.all 2) "l2w" ∧
      (((Role.all 2).flatMap (fun role =>
        (Network.run processes processActions role).invokedItems "l2w")).map
          SubscriptionData.data).Perm
        (((Role.all 2).flatMap (fun role =>
          (Network.run drawn drawnActions role).invokedItems "l2w")).map
            SubscriptionData.data) := by
  have same : ∀ edge ∈ dag.edges, sources processes processActions (Role.all 2) edge.id =
      sources drawn drawnActions (Role.all 2) edge.id := by
    intro edge listed
    rcases edges_dag edge listed with rfl | rfl <;> decide
  have independent := application_processes.schedule_independent exactlyOnce_processes
    Role.nodup_all Role.mem_all application_drawn exactlyOnce_drawn Role.nodup_all Role.mem_all
    same wordEdge_mem
  exact independent

end
end Iceflow.WordCount
