import Mathlib.Data.List.Induction
import Iceflow.RingBuffer.Fifo

/-! What the members that only read see, and what a copy is. Both lock the mutex, so they
see a state between two critical sections. -/
namespace Iceflow.RingBuffer
variable {τ T : Type}

/-- `size`, with its cast to `int`. -/
def size (s : RingBuffer τ T) : Int32 := Int32.ofNat s.queue.length

def empty (s : RingBuffer τ T) : Bool := s.queue.isEmpty

/-- The copy constructor: the capacity is assigned with the elements. No thread is in a call
of the new buffer, and its history begins with what was stored. -/
def copy (other : RingBuffer τ T) : RingBuffer τ T :=
  ⟨other.queue, fun _ => .idle, other.queue.mapIdx (fun i value => .inserted value i)⟩

theorem Accounted.length {s : RingBuffer τ T} (accounted : Accounted s) :
    s.inserted.length = s.returned.length + s.overwriting + s.queue.length := by
  obtain ⟨gone, inserted, returned, missing⟩ := accounted
  have parts := gone.length_eq_countP_add_countP (fun x => x.2)
  rw [inserted, returned, ← missing, List.length_append, List.length_map, List.length_map,
    ← List.countP_eq_length_filter, parts]
  simp

theorem inserted_copy (s : RingBuffer τ T) : s.copy.inserted = s.queue := by
  rw [inserted, copy, List.mapIdx_eq_zipIdx_map, List.filterMap_map]
  have value : QueueEvent.insertion? ∘ (fun x : T × Nat => .inserted x.1 x.2) =
      some ∘ Prod.fst := rfl
  rw [value, List.filterMap_eq_map, List.zipIdx_map_fst]

theorem returned_copy (s : RingBuffer τ T) : s.copy.returned = [] := by
  rw [returned, List.filterMap_eq_nil_iff]
  intro event member
  obtain ⟨i, _, rfl⟩ := List.mem_mapIdx.mp member
  rfl

theorem overwriting_copy {s : RingBuffer τ T} (small : s.queue.length ≤ capacity) :
    s.copy.overwriting = 0 := by
  rw [overwriting, List.countP_eq_zero]
  intro event member
  obtain ⟨i, before, rfl⟩ := List.mem_mapIdx.mp member
  have inside : i ≠ capacity := by omega
  simpa [QueueEvent.overwrites] using inside

variable [DecidableEq τ]

theorem length_perform {s : RingBuffer τ T} (small : s.queue.length ≤ capacity)
    (step : Step τ T) : (s.perform step).queue.length ≤ capacity := by
  cases perform_cases s step with
  | silent queue history => rwa [queue]
  | locked t operation timedOut after lock entered left queue history =>
    have positive : 0 < capacity := by decide
    rw [queue]
    cases critical_cases left with
    | inserts value _ =>
      simp only [push, pushBack]
      split
      · simp only [List.length_append, List.length_tail, List.length_singleton]
        omega
      · simp only [List.length_append, List.length_singleton]
        omega
    | removes value rest front _ _ =>
      rw [front, List.length_cons] at small
      exact Nat.le_of_succ_le small
    | nothing empty => exact Nat.zero_le _

theorem run_length (steps : List (Step τ T)) : (run steps).queue.length ≤ capacity :=
  Transition.run_invariant (P := fun s : RingBuffer τ T => s.queue.length ≤ capacity)
    (fun _ step small => length_perform small step) (Nat.zero_le _) steps

/-- One push by a thread, with nobody else in a call. -/
def pushing (t : τ) (value : T) : List (Step τ T) :=
  [.call t (.push value), .lock t, .notifyAll t]

theorem run_pushing {queue : List T} {history : List (QueueEvent T)}
    (room : queue.length < capacity) (t : τ) (value : T) :
    Transition.run perform ⟨queue, fun _ => .idle, history⟩ (pushing t value) =
      (⟨queue ++ [value], fun _ => .idle, history ++ [.inserted value queue.length]⟩ :
        RingBuffer τ T) := by
  have notFull : queue.length ≠ capacity := Nat.ne_of_lt room
  simp only [pushing, Transition.run_cons, Transition.run_nil, perform, move, locking, enter,
    critical, push, pushBack, Function.update_self, if_neg notFull, if_true, Option.toList_some]
  congr 1
  funext u
  by_cases here : u = t
  · subst here
    rw [Function.update_self]
  · simp only [Function.update_of_ne here, notified]

/-- A copy is a fresh buffer into which the stored elements were pushed. -/
theorem run_pushes (t : τ) (values : List T) (few : values.length ≤ capacity) :
    run (values.flatMap (pushing t)) = (⟨values, fun _ => .idle,
      values.mapIdx (fun i value => .inserted value i)⟩ : RingBuffer τ T) := by
  induction values using List.reverseRecOn with
  | nil => rfl
  | append_singleton values value ih =>
    rw [List.length_append, List.length_singleton] at few
    rw [List.flatMap_append, List.flatMap_cons, List.flatMap_nil, List.append_nil, run,
      Transition.run_append]
    have before := ih (by omega)
    rw [run] at before
    rw [before, run_pushing (by omega), List.mapIdx_append, List.mapIdx_cons, List.mapIdx_nil,
      Nat.zero_add]

structure Snapshot (s : RingBuffer τ T) : Prop where
  size : s.size.toInt = s.inserted.length - s.returned.length - s.overwriting
  bounded : 0 ≤ s.size.toInt ∧ s.size.toInt ≤ capacity
  empty : s.empty = true ↔ s.size = 0

/-- The size is what was inserted less what was returned and what was overwritten, and the
cast to `int` never truncates it. -/
theorem run_snapshot (steps : List (Step τ T)) : Snapshot (run steps) := by
  have small := run_length steps
  have stored := (run_accounted steps).length
  have cast : (run steps).size.toInt = (run steps).queue.length := by
    rw [RingBuffer.size, Int32.toInt_ofNat_of_lt (Nat.lt_of_le_of_lt small (by decide))]
  refine ⟨?_, ?_, ?_⟩
  · rw [cast]
    omega
  · rw [cast]
    omega
  · have zero : (run steps).size = 0 ↔ (run steps).queue.length = 0 := by
      rw [← Int32.toInt_inj, cast]
      exact Int.natCast_eq_zero
    rw [zero, List.length_eq_zero_iff]
    exact List.isEmpty_iff

/-- What a copy of a buffer does in a run of its own, apart from the original. -/
structure Copied (original copied : RingBuffer τ T) (later : List (Step τ T)) : Prop where
  pushed : ∀ t, copied = run (original.queue.flatMap (pushing t) ++ later)
  accounted : Accounted copied
  inserted : ∃ new, copied.inserted = original.queue ++ new
  exact : (∀ t operation, Step.call t operation ∈ later → operation.Throttled) →
    copied.returned ++ copied.queue = copied.inserted

theorem inserted_prefix_perform (s : RingBuffer τ T) (step : Step τ T) :
    s.inserted <+: (s.perform step).inserted := by
  cases perform_cases s step with
  | silent queue history =>
    exact ⟨[], by rw [inserted, inserted, history, List.append_nil]⟩
  | locked t operation timedOut after lock entered left queue history =>
    rw [inserted, inserted, history, List.filterMap_append]
    exact List.prefix_append _ _

/-- A copy taken at any point of a run returns the elements that were stored there before
its own insertions, whatever becomes of the original. -/
theorem run_copied (steps later : List (Step τ T)) :
    Copied (run steps) (Transition.run perform (run steps).copy later) later := by
  have small := run_length steps
  have start : Accounted (run steps).copy :=
    ⟨[], inserted_copy _, returned_copy _, (overwriting_copy small).symm⟩
  have accounted : Accounted (Transition.run perform (run steps).copy later) :=
    Transition.run_invariant (P := Accounted) (fun _ step a => a.perform step) start later
  refine ⟨?_, accounted, ?_, ?_⟩
  · intro t
    have pushed : Transition.run perform initial ((run steps).queue.flatMap (pushing t)) =
        (run steps).copy := run_pushes t (run steps).queue small
    rw [← pushed]
    exact (Transition.run_append perform initial _ later).symm
  · have grown : (run steps).copy.inserted <+:
        (Transition.run perform (run steps).copy later).inserted :=
      Transition.run_invariant (P := fun s => (run steps).copy.inserted <+: s.inserted)
        (fun s step before => before.trans (inserted_prefix_perform s step))
        (List.prefix_refl _) later
    obtain ⟨new, split⟩ := grown
    exact ⟨new, by rw [← split, inserted_copy]⟩
  · intro calls
    have throttled : Throttled capacity (Transition.run perform (run steps).copy later) := by
      apply Transition.run_preserves_labels
      · intro s step member throttled
        apply throttled.perform
        rintro t operation rfl
        have limited := calls t operation member
        exact ⟨limited, limited.atMost⟩
      · exact ⟨by simp [copy, CallPosition.operation?], overwriting_copy small, small⟩
    exact accounted.exact throttled.overwriting

end Iceflow.RingBuffer
