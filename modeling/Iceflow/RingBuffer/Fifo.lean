import Iceflow.RingBuffer

/-! What becomes of inserted values. Each push that has left its critical section has inserted
its value. The buffer holds the latest insertions; of the
earlier ones those that were not removed were overwritten, one by each insertion into
a full buffer. -/
namespace Iceflow
variable {τ T : Type}

namespace QueueEvent

def insertion? : QueueEvent T → Option T
  | .inserted value _ => some value
  | .removed _ => none

def removal? : QueueEvent T → Option T
  | .inserted _ _ => none
  | .removed value => some value

def overwrites : QueueEvent T → Bool
  | .inserted _ stored => stored = RingBuffer.capacity
  | .removed _ => false

end QueueEvent

/-- Insertions only by `pushData`, with thresholds from 1 to the capacity. -/
def Operation.Throttled : Operation T → Prop
  | .push _ => False
  | .pushData _ threshold => 1 ≤ threshold.toInt ∧ threshold.toInt ≤ RingBuffer.capacity
  | _ => True

def Operation.AtMost (bound : Nat) : Operation T → Prop
  | .pushData _ threshold => threshold.toInt ≤ bound
  | _ => True

theorem Operation.Throttled.atMost {operation : Operation T} (throttled : operation.Throttled) :
    operation.AtMost RingBuffer.capacity := by
  cases operation with
  | pushData value threshold => exact throttled.2
  | _ => trivial

def Operation.value? : Operation T → Option T
  | .push value | .pushData value _ => some value
  | _ => none

/-- The call a thread is in, until its last critical section. -/
def CallPosition.operation? : CallPosition T → Option (Operation T)
  | .entering operation | .parked operation | .woken operation => some operation
  | .expired => some .waitForAndPop
  | .idle | .notifying => none

namespace RingBuffer

/-- The inserted values, in lock order. -/
def inserted (s : RingBuffer τ T) : List T := s.history.filterMap QueueEvent.insertion?

/-- The values that popping calls returned, in lock order. -/
def returned (s : RingBuffer τ T) : List T := s.history.filterMap QueueEvent.removal?

def overwriting (s : RingBuffer τ T) : Nat := s.history.countP QueueEvent.overwrites

theorem overwriting_append {s s' : RingBuffer τ T} {events : List (QueueEvent T)}
    (history : s'.history = s.history ++ events) :
    s'.overwriting = s.overwriting + events.countP QueueEvent.overwrites := by
  rw [overwriting, history, List.countP_append]
  rfl

/-- Every insertion is stored, or has left: it was returned (`true`) or overwritten. -/
def Accounted (s : RingBuffer τ T) : Prop :=
  ∃ gone : List (T × Bool), s.inserted = gone.map Prod.fst ++ s.queue ∧
    s.returned = (gone.filter Prod.snd).map Prod.fst ∧
    gone.countP (fun x => !x.2) = s.overwriting

theorem Accounted.sublist {s : RingBuffer τ T} (accounted : Accounted s) :
    (s.returned ++ s.queue).Sublist s.inserted := by
  obtain ⟨gone, inserted, returned, _⟩ := accounted
  rw [inserted, returned]
  exact (List.filter_sublist.map _).append_right _

/-- Nothing was overwritten: what was returned and what is stored is what was inserted. -/
theorem Accounted.exact {s : RingBuffer τ T} (accounted : Accounted s)
    (none : s.overwriting = 0) : s.returned ++ s.queue = s.inserted := by
  obtain ⟨gone, inserted, returned, missing⟩ := accounted
  rw [none, List.countP_eq_zero] at missing
  have all : gone.filter Prod.snd = gone := by
    rw [List.filter_eq_self]
    intro x member
    simpa using missing x member
  rw [inserted, returned, all]

variable [DecidableEq τ]

theorem Accounted.perform {s : RingBuffer τ T} (accounted : Accounted s) (step : Step τ T) :
    Accounted (s.perform step) := by
  obtain ⟨gone, inserted, returned, missing⟩ := accounted
  cases perform_cases s step with
  | silent queue history =>
    refine ⟨gone, ?_, ?_, ?_⟩
    · rw [RingBuffer.inserted, history, queue]
      exact inserted
    · rw [RingBuffer.returned, history]
      exact returned
    · rw [overwriting, history]
      exact missing
  | locked t operation timedOut after lock entered left queue history =>
    cases critical_cases left with
    | inserts value _ =>
      have inserted' : (s.perform step).inserted = s.inserted ++ [value] := by
        simp [RingBuffer.inserted, history, push, QueueEvent.insertion?]
      have returned' : (s.perform step).returned = s.returned := by
        simp [RingBuffer.returned, history, push, QueueEvent.removal?]
      by_cases full : s.queue.length = capacity
      · -- The oldest element is overwritten.
        have overwriting' : (s.perform step).overwriting = s.overwriting + 1 := by
          simp [overwriting_append history, push, QueueEvent.overwrites, full]
        obtain ⟨oldest, rest, split⟩ : ∃ oldest rest, s.queue = oldest :: rest := by
          cases stored : s.queue with
          | nil => simp [stored, capacity] at full
          | cons oldest rest => exact ⟨oldest, rest, rfl⟩
        refine ⟨gone ++ [(oldest, false)], ?_, ?_, ?_⟩
        · rw [inserted', inserted, queue, push, pushBack, if_pos full, split]
          simp
        · rw [returned', returned]
          simp
        · rw [overwriting', List.countP_append, missing]
          simp
      · have overwriting' : (s.perform step).overwriting = s.overwriting := by
          simp [overwriting_append history, push, QueueEvent.overwrites, full]
        refine ⟨gone, ?_, by rw [returned', returned], by rw [overwriting', missing]⟩
        rw [inserted', inserted, queue, push, pushBack, if_neg full, List.append_assoc]
    | removes value rest front notifies _ =>
      have inserted' : (s.perform step).inserted = s.inserted := by
        simp [RingBuffer.inserted, history, QueueEvent.insertion?]
      have returned' : (s.perform step).returned = s.returned ++ [value] := by
        simp [RingBuffer.returned, history, QueueEvent.removal?]
      have overwriting' : (s.perform step).overwriting = s.overwriting := by
        simp [overwriting_append history, QueueEvent.overwrites]
      refine ⟨gone ++ [(value, true)], ?_, ?_, ?_⟩
      · rw [inserted', inserted, queue, front]
        simp
      · rw [returned', returned]
        simp
      · rw [overwriting', List.countP_append, missing]
        simp
    | nothing empty =>
      have same : (s.perform step).history = s.history := by simpa using history
      refine ⟨gone, ?_, ?_, ?_⟩
      · rw [RingBuffer.inserted, same, queue, ← empty]
        exact inserted
      · rw [RingBuffer.returned, same]
        exact returned
      · rw [overwriting, same]
        exact missing

theorem run_accounted (steps : List (Step τ T)) : Accounted (run steps) :=
  Transition.run_invariant (P := Accounted) (fun _ step accounted => accounted.perform step)
    ⟨[], rfl, rfl, rfl⟩ steps

theorem operation_move {s : RingBuffer τ T} {t u : τ} {position : CallPosition T}
    {operation : Operation T}
    (inside : ((s.move t position).position u).operation? = some operation) :
    (s.position u).operation? = some operation ∨
      u = t ∧ position.operation? = some operation := by
  by_cases same : u = t
  · subst same
    rw [move_self] at inside
    exact Or.inr ⟨rfl, inside⟩
  · rw [move_other s same] at inside
    exact Or.inl inside

theorem operation_move_within {s : RingBuffer τ T} {t u : τ} {position : CallPosition T}
    {operation : Operation T}
    (within : ∀ called, position.operation? = some called →
      (s.position t).operation? = some called)
    (inside : ((s.move t position).position u).operation? = some operation) :
    (s.position u).operation? = some operation := by
  rcases operation_move inside with before | ⟨rfl, new⟩
  · exact before
  · exact within operation new

theorem operation_locking {position : CallPosition T} {operation : Operation T}
    {timedOut : Bool} (entered : locking position = some (operation, timedOut)) :
    position.operation? = some operation := by
  cases position <;> cases entered <;> rfl

theorem operation_notified (position : CallPosition T) :
    (notified position).operation? = position.operation? := by
  cases position <;> rfl

theorem operation_perform {s : RingBuffer τ T} {step : Step τ T} {u : τ}
    {operation : Operation T}
    (inside : ((s.perform step).position u).operation? = some operation) :
    (s.position u).operation? = some operation ∨ step = .call u operation := by
  cases step with
  | call t called =>
    simp only [perform] at inside
    split at inside
    · rcases operation_move inside with before | ⟨rfl, new⟩
      · exact Or.inl before
      · cases new
        exact Or.inr rfl
    · exact Or.inl inside
  | lock t =>
    left
    simp only [perform] at inside
    split at inside
    · rename_i called timedOut entered
      have calling := operation_locking entered
      simp only [enter] at inside
      split at inside
      · refine operation_move_within ?_ inside
        rintro _ ⟨⟩
        exact calling
      · refine operation_move_within ?_ inside
        intro _ new
        split at new <;> cases new
    · exact inside
  | wake t | expire t =>
    left
    simp only [perform] at inside
    split at inside
    · rename_i parked
      refine operation_move_within ?_ inside
      intro _ same
      rw [parked]
      exact same
    · exact inside
  | notifyAll t =>
    left
    simp only [perform] at inside
    split at inside
    · by_cases same : u = t
      · subst same
        simp [CallPosition.operation?] at inside
      · simp only [Function.update_of_ne same, operation_notified] at inside
        exact inside
    · exact inside

/-- The value of the call that leaves its critical section by a step and does not wait. -/
def completes (s : RingBuffer τ T) (step : Step τ T) : Option T :=
  match step with
  | .lock t =>
    match locking (s.position t) with
    | some (operation, _) =>
      if ((s.perform step).position t).operation?.isNone then operation.value? else none
    | none => none
  | _ => none

theorem insertion_critical {timedOut : Bool} {queue : List T} {operation : Operation T}
    {after : Section T} (left : critical timedOut queue operation = some after) :
    after.event.toList.filterMap QueueEvent.insertion? = operation.value?.toList := by
  cases operation with
  | push value =>
    cases left
    rfl
  | pushData value threshold =>
    simp only [critical, pushData] at left
    split at left
    · contradiction
    · cases left
      rfl
  | tryAndPop | waitAndPop | waitAndPopValue => cases queue <;> cases left <;> rfl
  | waitForAndPop =>
    cases queue with
    | nil =>
      cases timedOut with
      | false => cases left
      | true =>
        cases left
        rfl
    | cons value rest =>
      cases left
      rfl

theorem inserted_perform (s : RingBuffer τ T) (step : Step τ T) :
    (s.perform step).inserted = s.inserted ++ (s.completes step).toList := by
  cases step with
  | lock t =>
    cases entered : locking (s.position t) with
    | none => simp [perform, completes, entered]
    | some call =>
      obtain ⟨operation, timedOut⟩ := call
      cases left : critical timedOut s.queue operation with
      | none =>
        have waits : s.perform (.lock t) = s.move t (.parked operation) := by
          simp only [perform, entered, enter, left]
        simp only [completes, entered, waits, move_self]
        exact (List.append_nil _).symm
      | some after =>
        have done : ((s.perform (.lock t)).position t).operation?.isNone = true := by
          simp only [perform, entered, enter, left, move, Function.update_self]
          split <;> rfl
        rw [completes, entered]
        simp only [done, if_true]
        have history : (s.perform (.lock t)).history = s.history ++ after.event.toList := by
          simp only [perform, entered, enter, left]
        rw [← insertion_critical left, inserted, history, List.filterMap_append, inserted]
  | call t operation | wake t | expire t | notifyAll t =>
    -- Only critical sections write to the history.
    cases perform_cases s _ with
    | silent queue history =>
      rw [inserted, history]
      exact (List.append_nil _).symm
    | locked u operation timedOut after lock => cases lock

theorem run_inserted (steps : List (Step τ T)) :
    (run steps).inserted =
      (Transition.steps perform initial steps).filterMap (fun x => completes x.1 x.2) :=
  Transition.run_log inserted completes inserted_perform initial steps

/-- Backpressure: every call is throttled by at most the bound, and so is the queue. -/
structure Throttled (bound : Nat) (s : RingBuffer τ T) : Prop where
  calls : ∀ u operation, (s.position u).operation? = some operation →
    operation.Throttled ∧ operation.AtMost bound
  overwriting : s.overwriting = 0
  size : s.queue.length ≤ bound

theorem Throttled.perform {bound : Nat} {s : RingBuffer τ T} (throttled : Throttled bound s)
    {step : Step τ T}
    (call : ∀ t operation, step = .call t operation →
      operation.Throttled ∧ operation.AtMost bound) :
    Throttled bound (s.perform step) := by
  have calls : ∀ u operation, ((s.perform step).position u).operation? = some operation →
      operation.Throttled ∧ operation.AtMost bound := by
    intro u operation inside
    rcases operation_perform inside with before | made
    · exact throttled.calls u operation before
    · exact call u operation made
  cases perform_cases s step with
  | silent queue history =>
    refine ⟨calls, ?_, ?_⟩
    · rw [RingBuffer.overwriting, history]
      exact throttled.overwriting
    · rw [queue]
      exact throttled.size
  | locked t operation timedOut after lock entered left queue history =>
    cases critical_cases left with
    | inserts value asked =>
      obtain ⟨limited, most⟩ := throttled.calls t operation (operation_locking entered)
      rcases asked with rfl | ⟨threshold, rfl, room⟩
      · exact limited.elim
      · obtain ⟨low, high⟩ := limited
        have most : threshold.toInt ≤ bound := most
        have size : (thresholdSize threshold : Int) = threshold.toInt :=
          thresholdSize_of_nonneg (by omega)
        have free : ¬s.queue.length = capacity := by omega
        refine ⟨calls, ?_, ?_⟩
        · rw [overwriting_append history, throttled.overwriting]
          simp [push, QueueEvent.overwrites, free]
        · rw [queue, push, pushBack, if_neg free, List.length_append, List.length_singleton]
          omega
    | removes value rest front notifies _ =>
      refine ⟨calls, ?_, ?_⟩
      · rw [overwriting_append history, throttled.overwriting]
        simp [QueueEvent.overwrites]
      · have size := throttled.size
        rw [front, List.length_cons] at size
        rw [queue]
        change rest.length ≤ bound
        omega
    | nothing empty =>
      refine ⟨calls, ?_, ?_⟩
      · rw [overwriting_append history, throttled.overwriting]
        rfl
      · rw [queue]
        exact Nat.zero_le bound

theorem run_throttled {bound : Nat} {steps : List (Step τ T)}
    (calls : ∀ t operation, Step.call t operation ∈ steps →
      operation.Throttled ∧ operation.AtMost bound) :
    Throttled bound (run steps) := by
  apply Transition.run_preserves_labels
  · intro s step member throttled
    apply throttled.perform
    rintro t operation rfl
    exact calls t operation member
  · exact ⟨by simp [initial, CallPosition.operation?], rfl, Nat.zero_le bound⟩

/-- What the buffer owes its callers after a run: each push that left its critical section
inserted its value, in lock order; values leave in the order they came, each insertion at
most once, and what is missing was overwritten in a full buffer. Under backpressure nothing
is missing and the size stays within the thresholds. -/
structure LosslessFifo (steps : List (Step τ T)) : Prop where
  called : (run steps).inserted =
    (Transition.steps perform initial steps).filterMap (fun x => completes x.1 x.2)
  order : ((run steps).returned ++ (run steps).queue).Sublist (run steps).inserted
  accounted : Accounted (run steps)
  exact : (∀ t operation, Step.call t operation ∈ steps → operation.Throttled) →
    (run steps).returned ++ (run steps).queue = (run steps).inserted
  size : (∀ t operation, Step.call t operation ∈ steps → operation.Throttled) →
    ∀ bound, (∀ t operation, Step.call t operation ∈ steps → operation.AtMost bound) →
      (run steps).queue.length ≤ bound

theorem run_losslessFifo (steps : List (Step τ T)) : LosslessFifo steps where
  called := run_inserted steps
  order := (run_accounted steps).sublist
  accounted := run_accounted steps
  exact throttled := by
    have under : Throttled capacity (run steps) := by
      apply run_throttled
      intro t operation called
      have limited := throttled t operation called
      exact ⟨limited, Operation.Throttled.atMost limited⟩
    exact (run_accounted steps).exact under.overwriting
  size throttled bound most := by
    have under : Throttled bound (run steps) := by
      apply run_throttled
      intro t operation called
      exact ⟨throttled t operation called, most t operation called⟩
    exact under.size

end RingBuffer
end Iceflow
