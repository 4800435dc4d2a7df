import Iceflow.EventLoop

/-! What a `shutdown` ends. It is lost on a call of `run` that has passed its guard and
not yet set the flag; without such a call every loop returns after at most two more
steps of its own. -/
namespace Iceflow

/-- An upper bound of the steps that a call takes once the flag stays cleared. -/
def Position.remaining : Position → Nat
  | .idle => 0
  | .testing => 1
  | .guarded | .armed | .processing => 2

theorem Position.remaining_le (position : Position) : position.remaining ≤ 2 := by
  cases position <;> decide

namespace EventLoop
variable {ι : Type}

def Step.isGuard : Step ι → Bool
  | .guard _ => true
  | _ => false

/-- The flag is cleared, and no call is about to set it. -/
structure Cleared (s : EventLoop ι) : Prop where
  running : s.running = false
  guarded : ∀ t, s.position t ≠ .guarded

variable [DecidableEq ι]

def moves (s : EventLoop ι) (step : Step ι) (t : ι) : Bool :=
  (s.perform step).position t ≠ s.position t

theorem Cleared.perform {s : EventLoop ι} (cleared : Cleared s) {step : Step ι}
    (known : step.isGuard = false) : Cleared (s.perform step) := by
  have moved (t : ι) {position : Position} (other : position ≠ .guarded) :
      Cleared (s.move t position) := by
    refine ⟨cleared.running, ?_⟩
    intro u
    rw [position_move]
    split
    · exact other
    · exact cleared.guarded u
  cases step with
  | guard t => cases known
  | set t => simpa only [EventLoop.perform, if_neg (cleared.guarded t)] using cleared
  | shutdown => exact ⟨rfl, cleared.guarded⟩
  | spawn t created =>
    simp only [EventLoop.perform]
    split
    · exact moved t (by cases created <;> decide)
    · exact cleared
  | test t =>
    simp only [EventLoop.perform, cleared.running]
    split
    · exact moved t (by decide)
    · exact cleared
  | processed t =>
    simp only [EventLoop.perform]
    split
    · exact moved t (by decide)
    · exact cleared

theorem Cleared.lowers {s : EventLoop ι} (cleared : Cleared s) {step : Step ι}
    (known : step.isGuard = false) (t : ι) :
    ((s.perform step).position t).remaining + (if s.moves step t then 1 else 0) ≤
      (s.position t).remaining := by
  have still (same : (s.perform step).position t = s.position t) :
      ((s.perform step).position t).remaining + (if s.moves step t then 1 else 0) ≤
        (s.position t).remaining := by
    simp [moves, same]
  have moved {u : ι} {position : Position}
      (performed : s.perform step = s.move u position)
      (less : position.remaining < (s.position u).remaining) :
      ((s.perform step).position t).remaining + (if s.moves step t then 1 else 0) ≤
        (s.position t).remaining := by
    by_cases here : t = u
    · subst here
      rw [performed, position_move, if_pos rfl]
      split <;> omega
    · exact still (by rw [performed, position_move, if_neg here])
  cases step with
  | guard u => cases known
  | shutdown => exact still rfl
  | set u => exact still (by simp only [EventLoop.perform, if_neg (cleared.guarded u)])
  | spawn u created =>
    by_cases armed : s.position u = .armed
    · have performed : s.perform (.spawn u created) =
          s.move u (if created then .testing else .idle) := by
        simp only [EventLoop.perform, if_pos armed]
      apply moved performed
      rw [armed]
      cases created <;> decide
    · exact still (by simp only [EventLoop.perform, if_neg armed])
  | test u =>
    by_cases testing : s.position u = .testing
    · have performed : s.perform (.test u) = s.move u .idle := by
        simp [EventLoop.perform, testing, cleared.running]
      apply moved performed
      rw [testing]
      decide
    · exact still (by simp only [EventLoop.perform, if_neg testing])
  | processed u =>
    by_cases processing : s.position u = .processing
    · have performed : s.perform (.processed u) = s.move u .testing := by
        simp only [EventLoop.perform, if_pos processing]
      apply moved performed
      rw [processing]
      decide
    · exact still (by simp only [EventLoop.perform, if_neg processing])

theorem Cleared.next {s : EventLoop ι} (cleared : Cleared s) {t : ι}
    (busy : s.position t ≠ .idle) : ∃ step, step.isGuard = false ∧ s.moves step t := by
  cases here : s.position t with
  | idle => exact absurd here busy
  | guarded => exact absurd here (cleared.guarded t)
  | armed => exact ⟨.spawn t true, rfl, by simp [moves, EventLoop.perform, here, position_move]⟩
  | testing =>
    exact ⟨.test t, rfl, by simp [moves, EventLoop.perform, here, cleared.running, position_move]⟩
  | processing => exact ⟨.processed t, rfl, by simp [moves, EventLoop.perform, here, position_move]⟩

/-- What `shutdown` does in a state, whatever happens afterwards but new calls of `run`:
the flag stays cleared, every thread takes at most two more steps, and a thread that is
still inside its call has a next one. -/
structure Stops (s : EventLoop ι) : Prop where
  stays : ∀ rest : List (Step ι), (∀ step ∈ rest, step.isGuard = false) →
    (Transition.run perform (s.perform .shutdown) rest).running = false
  bounded : ∀ rest : List (Step ι), (∀ step ∈ rest, step.isGuard = false) → ∀ t,
    (Transition.steps perform (s.perform .shutdown) rest).countP (fun x => x.1.moves x.2 t) ≤ 2
  next : ∀ rest : List (Step ι), (∀ step ∈ rest, step.isGuard = false) → ∀ t,
    (Transition.run perform (s.perform .shutdown) rest).position t ≠ .idle → ∃ step,
      step.isGuard = false ∧ (Transition.run perform (s.perform .shutdown) rest).moves step t

/-- `shutdown` stops the object exactly if no call of `run` is between its guard and its
write of the flag, which would set the flag again. -/
theorem stops_iff (s : EventLoop ι) : s.Stops ↔ ∀ t, s.position t ≠ .guarded := by
  constructor
  · intro stops t guarded
    have lost := stops.stays [.set t] (by simp [Step.isGuard])
    simp [Transition.run, perform, guarded] at lost
  · intro unguarded
    have start : Cleared (s.perform .shutdown) := ⟨rfl, unguarded⟩
    have cleared (rest : List (Step ι)) (known : ∀ step ∈ rest, step.isGuard = false) :
        Cleared (Transition.run perform (s.perform .shutdown) rest) :=
      Transition.run_preserves_labels (fun s step member c => c.perform (known step member)) start
    refine ⟨fun rest known => (cleared rest known).running, ?_, ?_⟩
    · intro rest known t
      have total : ((Transition.run perform (s.perform .shutdown) rest).position t).remaining +
          (Transition.steps perform (s.perform .shutdown) rest).countP
            (fun x => x.1.moves x.2 t) ≤
          ((s.perform .shutdown).position t).remaining + (rest.map (fun _ => 0)).sum :=
        Transition.marked_le (P := Cleared) (Q := fun step => step.isGuard = false)
          (fun s => (s.position t).remaining) (fun _ => 0) (fun s step => s.moves step t)
          (fun _ _ c known => c.perform known) (fun _ _ c known => c.lowers known t) start known
      have free : (rest.map (fun _ => 0)).sum = 0 := by simp
      have most := ((s.perform .shutdown).position t).remaining_le
      omega
    · intro rest known t busy
      exact (cleared rest known).next busy

end EventLoop
end Iceflow
