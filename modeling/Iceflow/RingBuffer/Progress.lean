import Mathlib.Algebra.BigOperators.Group.Finset.Basic
import Mathlib.Algebra.Order.BigOperators.Group.Finset
import Mathlib.Data.Fintype.BigOperators
import Iceflow.RingBuffer.Fifo
import Iceflow.RingBuffer.Wakeup

/-! Progress of threads that share a buffer. Their work is bounded by what they ask for:
each call, spurious wake-up and time-out pays for the steps that it causes. When the work is
done, producers and consumers do not wait for each other. -/
namespace Iceflow
variable {τ T : Type}

/-- A call that notifies the others and that an empty buffer lets through or fills. -/
def Operation.Cooperative : Operation T → Prop
  | .push _ | .waitAndPopValue => True
  | .pushData _ threshold => threshold ≠ 0
  | .tryAndPop | .waitAndPop | .waitForAndPop => False

theorem Operation.Cooperative.loud {operation : Operation T}
    (cooperative : operation.Cooperative) : operation.popsSilently = false := by
  cases operation with
  | push | pushData | waitAndPopValue => rfl
  | tryAndPop | waitAndPop | waitForAndPop => cases cooperative

/-- What a thread can still cost among so many threads: it may fail under the lock once, and
its `notify_all` may wake all the others. -/
def CallPosition.weight (threads : Nat) : CallPosition T → Nat
  | .idle => 0
  | .parked _ | .notifying => threads
  | .entering _ | .woken _ | .expired => threads + 1

namespace RingBuffer

theorem thresholdSize_ne_zero {threshold : Int32} (nonzero : threshold ≠ 0) :
    thresholdSize threshold ≠ 0 := by
  intro zero
  have wide : threshold.toInt64.toUInt64.toBitVec = 0 := BitVec.eq_of_toNat_eq zero
  have value : threshold.toInt64.toInt = 0 := by
    change threshold.toInt64.toUInt64.toBitVec.toInt = 0
    rw [wide]
    rfl
  rw [Int32.toInt_toInt64] at value
  exact nonzero (Int32.toInt_inj.mp value)

def Step.isCall : Step τ T → Bool
  | .call _ _ => true
  | _ => false

/-- A parked thread is woken without a `notify_all`. -/
def Step.isWakeup : Step τ T → Bool
  | .wake _ | .expire _ => true
  | _ => false

/-- The step runs a critical section or a `notify_all`. -/
def effective (s : RingBuffer τ T) : Step τ T → Bool
  | .lock t => (locking (s.position t)).isSome
  | .notifyAll t => match s.position t with
    | .notifying => true
    | _ => false
  | _ => false

/-- A thread that is neither outside of its call nor parked has a step that does something. -/
theorem exists_effective {s : RingBuffer τ T} {t : τ} (busy : s.position t ≠ .idle)
    (active : ∀ operation, s.position t ≠ .parked operation) :
    s.effective (.lock t) ∨ s.effective (.notifyAll t) := by
  cases here : s.position t with
  | idle => exact absurd here busy
  | parked operation => exact absurd here (active operation)
  | entering | woken | expired => exact Or.inl (by simp [effective, locking, here])
  | notifying => exact Or.inr (by simp [effective, here])

section
variable [Fintype τ]

def potential (s : RingBuffer τ T) : Nat := ∑ t, (s.position t).weight (Fintype.card τ)

def others (s : RingBuffer τ T) [DecidableEq τ] (t : τ) : Nat :=
  ∑ u ∈ Finset.univ.erase t, (s.position u).weight (Fintype.card τ)

theorem potential_eq [DecidableEq τ] (s : RingBuffer τ T) (t : τ) :
    s.potential = (s.position t).weight (Fintype.card τ) + s.others t :=
  (Finset.add_sum_erase _ _ (Finset.mem_univ t)).symm

/-- What a step may add: a call the cost of one thread, a wake-up one more attempt. -/
def Step.credit (step : Step τ T) : Nat :=
  (if step.isCall then Fintype.card τ + 1 else 0) + if step.isWakeup then 1 else 0

theorem sum_credit (steps : List (Step τ T)) : (steps.map Step.credit).sum =
    (Fintype.card τ + 1) * steps.countP Step.isCall + steps.countP Step.isWakeup := by
  induction steps with
  | nil => rfl
  | cons step rest ih =>
    rw [List.map_cons, List.sum_cons, ih, List.countP_cons, List.countP_cons, Step.credit]
    split <;> split <;> simp only [Nat.mul_add] <;> omega

variable [DecidableEq τ]

theorem others_congr {s s' : RingBuffer τ T} {t : τ}
    (same : ∀ u ≠ t, s'.position u = s.position u) : s'.others t = s.others t := by
  apply Finset.sum_congr rfl
  intro u member
  rw [same u (Finset.ne_of_mem_erase member)]

theorem potential_move (s : RingBuffer τ T) (t : τ) (position : CallPosition T) :
    (s.move t position).potential = position.weight (Fintype.card τ) + s.others t := by
  rw [potential_eq _ t, move_self, others_congr (fun u other => move_other s other position)]

theorem weight_notified (threads : Nat) (position : CallPosition T) :
    (notified position).weight threads ≤ position.weight threads + 1 := by
  cases position <;> simp [notified, CallPosition.weight]

/-- A `notify_all` gives each of the other threads at most one more attempt. -/
theorem others_notified {s s' : RingBuffer τ T} {t : τ}
    (woken : ∀ u ≠ t, s'.position u = notified (s.position u)) :
    s'.others t + 1 ≤ s.others t + Fintype.card τ := by
  have each : s'.others t ≤
      ∑ u ∈ Finset.univ.erase t, ((s.position u).weight (Fintype.card τ) + 1) := by
    apply Finset.sum_le_sum
    intro u member
    rw [woken u (Finset.ne_of_mem_erase member)]
    exact weight_notified _ _
  rw [Finset.sum_add_distrib, ← Finset.card_eq_sum_ones,
    Finset.card_erase_of_mem (Finset.mem_univ t), Finset.card_univ] at each
  have inhabited : 0 < Fintype.card τ := Fintype.card_pos_iff.mpr ⟨t⟩
  simp only [others] at each ⊢
  omega

theorem potential_perform (s : RingBuffer τ T) (step : Step τ T) :
    (s.perform step).potential + (if s.effective step then 1 else 0) ≤
      s.potential + step.credit := by
  cases step with
  | call t operation =>
    simp only [perform, effective, Step.credit, Step.isCall, Step.isWakeup]
    split
    · rw [potential_move, potential_eq s t]
      simp only [CallPosition.weight]
      simp
      omega
    · simp
  | lock t =>
    simp only [perform, effective, Step.credit, Step.isCall, Step.isWakeup]
    split
    · rename_i operation timedOut entered
      have active : (s.position t).weight (Fintype.card τ) = Fintype.card τ + 1 := by
        cases here : s.position t <;> simp [here, locking] at entered <;> rfl
      have moved {position : CallPosition T} {after : RingBuffer τ T}
          (where_to : after.position = (s.move t position).position)
          (less : position.weight (Fintype.card τ) ≤ Fintype.card τ) :
          after.potential + 1 ≤ s.potential := by
        have same : after.potential = (s.move t position).potential := by
          simp only [potential, where_to]
        rw [same, potential_move, potential_eq s t, active]
        omega
      simp only [entered, Option.isSome_some, if_true, enter]
      split
      · exact moved rfl (Nat.le_refl _)
      · rename_i after _
        refine moved rfl ?_
        split <;> simp [CallPosition.weight]
    · rename_i outside
      simp [outside]
  | wake t =>
    simp only [perform, effective, Step.credit, Step.isCall, Step.isWakeup]
    split
    · rename_i parked
      rw [potential_move, potential_eq s t, parked]
      simp [CallPosition.weight]
      omega
    · simp
  | expire t =>
    simp only [perform, effective, Step.credit, Step.isCall, Step.isWakeup]
    split
    · rename_i parked
      rw [potential_move, potential_eq s t, parked]
      simp [CallPosition.weight]
      omega
    · simp
  | notifyAll t =>
    by_cases notifying : s.position t = .notifying
    · have moves : s.effective (.notifyAll t) = true := by simp only [effective, notifying]
      have performed : s.perform (.notifyAll t) = { s with
          position := Function.update (fun u => notified (s.position u)) t .idle } := by
        simp only [perform, notifying]
      rw [if_pos moves, performed]
      generalize after_eq : ({ s with
        position := Function.update (fun u => notified (s.position u)) t .idle } :
          RingBuffer τ T) = after
      have left : after.position t = .idle := by
        simp [← after_eq]
      have woken : ∀ u ≠ t, after.position u = notified (s.position u) := by
        intro u other
        simp [← after_eq, other]
      have attempts := others_notified woken
      rw [potential_eq after t, potential_eq s t, left]
      simp only [notifying, CallPosition.weight]
      omega
    · have rests : s.effective (.notifyAll t) = false := by
        cases other : s.position t with
        | notifying => exact absurd other notifying
        | idle | entering | parked | woken | expired => simp only [effective, other]
      have performed : s.perform (.notifyAll t) = s := by
        cases other : s.position t with
        | notifying => exact absurd other notifying
        | idle | entering | parked | woken | expired => simp only [perform, other]
      rw [rests, performed]
      exact Nat.le_add_right _ _

end

variable [DecidableEq τ]

theorem run_calls {P : Operation T → Prop} {steps : List (Step τ T)}
    (calls : ∀ t operation, Step.call t operation ∈ steps → P operation) (u : τ)
    (operation : Operation T)
    (inside : ((run steps).position u).operation? = some operation) : P operation := by
  have all : ∀ u operation, ((run steps).position u).operation? = some operation →
      P operation := by
    apply Transition.run_preserves_labels (P := fun s : RingBuffer τ T =>
      ∀ u operation, (s.position u).operation? = some operation → P operation)
    · intro s step member known u operation inside
      rcases operation_perform inside with before | rfl
      · exact known u operation before
      · exact calls u operation member
    · intro u operation inside
      cases inside
  exact all u operation inside

/-- Calls that notify when they are done lose no wake-up. -/
theorem run_cooperative {steps : List (Step τ T)}
    (calls : ∀ t operation, Step.call t operation ∈ steps → operation.Cooperative) :
    NoLostWakeup (run steps) := by
  induction steps using List.reverseRecOn with
  | nil => rintro t operation ⟨⟩
  | append_singleton steps step ih =>
    have earlier := fun t operation called => calls t operation (List.mem_append_left _ called)
    rw [run, Transition.run_append]
    refine (noLostWakeup_perform (ih earlier) step).mpr ?_
    cases step with
    | lock t =>
      intro operation timedOut entered silent
      have cooperative := run_calls (P := Operation.Cooperative) earlier t operation
        (operation_locking entered)
      rw [cooperative.loud] at silent
      cases silent
    | call | wake | expire | notifyAll => trivial

def Quiet (s : RingBuffer τ T) : Prop :=
  ∀ t, s.position t = .idle ∨ ∃ operation, s.position t = .parked operation

structure Settles [Fintype τ] (steps : List (Step τ T)) : Prop where
  bounded : (Transition.steps perform initial steps).countP (fun x => x.1.effective x.2) ≤
    (Fintype.card τ + 1) * steps.countP Step.isCall + steps.countP Step.isWakeup
  next : ¬(run steps).Quiet →
    ∃ t, (run steps).effective (.lock t) ∨ (run steps).effective (.notifyAll t)
  consumers : (∀ t operation, Step.call t operation ∈ steps → operation.Cooperative) →
    (run steps).Quiet → ∀ t, (run steps).position t = .parked .waitAndPopValue →
      (run steps).queue = [] ∧
        ∀ u value threshold, (run steps).position u ≠ .parked (.pushData value threshold)
  producers : (∀ t operation, Step.call t operation ∈ steps → operation.Cooperative) →
    (run steps).Quiet → ∀ t value threshold,
      (run steps).position t = .parked (.pushData value threshold) →
        thresholdSize threshold ≤ (run steps).queue.length

/-- Whatever the threads call, their steps under the lock are bounded by their calls and
wake-ups, and the buffer gets quiet. With calls that notify, a thread that is parked then
waits for an element or for room that is not there, and not both kinds do. -/
theorem run_settles [Fintype τ] (steps : List (Step τ T)) : Settles steps := by
  have waiting (calls : ∀ t operation, Step.call t operation ∈ steps → operation.Cooperative)
      (quiet : (run steps).Quiet) {t : τ} {operation : Operation T}
      (parked : (run steps).position t = .parked operation) :
      ¬ready (run steps).queue operation := by
    intro goes
    obtain ⟨u, notifying⟩ := run_cooperative calls t operation parked goes
    rcases quiet u with idle | ⟨_, other⟩
    · rw [idle] at notifying
      cases notifying
    · rw [other] at notifying
      cases notifying
  have full (calls : ∀ t operation, Step.call t operation ∈ steps → operation.Cooperative)
      (quiet : (run steps).Quiet) {t : τ} {value : T} {threshold : Int32}
      (parked : (run steps).position t = .parked (.pushData value threshold)) :
      thresholdSize threshold ≤ (run steps).queue.length := by
    have waits := waiting calls quiet parked
    rwa [ready_pushData, not_lt] at waits
  constructor
  case bounded =>
    have amortized : (run steps).potential +
        (Transition.steps perform initial steps).countP (fun x => x.1.effective x.2) ≤
          (initial : RingBuffer τ T).potential + (steps.map Step.credit).sum :=
      Transition.marked_le (P := fun _ => True) (Q := fun _ => True) potential Step.credit
        effective (fun _ _ _ _ => trivial) (fun s step _ _ => potential_perform s step) trivial
        (fun _ _ => trivial)
    have nothing : (initial : RingBuffer τ T).potential = 0 := by
      simp [potential, initial, CallPosition.weight]
    rw [nothing, sum_credit] at amortized
    omega
  case next =>
    intro busy
    simp only [Quiet, not_forall, not_or, not_exists] at busy
    obtain ⟨t, inside, active⟩ := busy
    exact ⟨t, exists_effective inside active⟩
  case consumers =>
    intro calls quiet t parked
    have empty : (run steps).queue = [] := by
      cases queue : (run steps).queue with
      | nil => rfl
      | cons value rest =>
        refine absurd ?_ (waiting calls quiet parked)
        rw [queue, ready_cons]
        rintro pushed threshold ⟨⟩
    refine ⟨empty, ?_⟩
    intro u value threshold producing
    have room := full calls quiet producing
    rw [empty, List.length_nil, Nat.le_zero] at room
    have called : ((run steps).position u).operation? = some (.pushData value threshold) := by
      rw [producing]
      rfl
    have cooperative : (Operation.pushData value threshold).Cooperative :=
      run_calls calls u _ called
    exact thresholdSize_ne_zero cooperative room
  case producers =>
    intro calls quiet t value threshold parked
    exact full calls quiet parked

end RingBuffer
end Iceflow
