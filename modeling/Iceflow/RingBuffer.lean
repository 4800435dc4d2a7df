import Iceflow.Foundation.Transition
import Mathlib.Logic.Function.Basic

/-! `RingBuffer` under any interleaving of its operations. Each section under the lock
is one step, and so is each re-check after a wake-up. `pop()` is read as the removal of
the front element. `history` records what happens under the lock; nothing reads it. -/
namespace Iceflow

/-- A call; the overloads of one name do the same to the queue. -/
inductive Operation (T : Type) where
  | push (value : T)
  | pushData (value : T) (threshold : Int32)
  | tryAndPop
  | waitAndPop
  | waitAndPopValue
  | waitForAndPop
  deriving DecidableEq

/-- The calls that remove an element without `notify_all`. -/
def Operation.popsSilently {T : Type} : Operation T → Bool
  | .tryAndPop | .waitAndPop | .waitForAndPop => true
  | .push _ | .pushData _ _ | .waitAndPopValue => false

inductive QueueEvent (T : Type) where
  /-- A value is inserted while this many elements are stored. -/
  | inserted (value : T) (stored : Nat)
  | removed (value : T)
  deriving DecidableEq

inductive CallPosition (T : Type) where
  | idle
  /-- About to lock the mutex. -/
  | entering (operation : Operation T)
  /-- Parked on `m_queueCondition`. -/
  | parked (operation : Operation T)
  /-- Woken, about to lock the mutex again. -/
  | woken (operation : Operation T)
  /-- The time of `waitForAndPop` is over; about to lock the mutex again. -/
  | expired
  /-- Out of the critical section, with `notify_all` still ahead. -/
  | notifying
  deriving DecidableEq

structure RingBuffer (τ T : Type) where
  queue : List T
  position : τ → CallPosition T
  history : List (QueueEvent T)

namespace RingBuffer
variable {τ T : Type}

/-- `m_queue(10000)` -/
def capacity : Nat := 10000

/-- `boost::circular_buffer::push_back`: a full buffer overwrites its oldest element. -/
def pushBack (queue : List T) (value : T) : List T :=
  if queue.length = capacity then queue.tail ++ [value] else queue ++ [value]

/-- The `int` threshold as `m_queue.size() >= threshold` compares it. -/
def thresholdSize (threshold : Int32) : Nat := threshold.toInt64.toUInt64.toNat

theorem thresholdSize_of_nonneg {threshold : Int32} (nonneg : 0 ≤ threshold.toInt) :
    (thresholdSize threshold : Int) = threshold.toInt := by
  have wide : threshold.toInt64.toInt = threshold.toInt := Int32.toInt_toInt64 threshold
  have bits : threshold.toInt64.toInt = threshold.toInt64.toUInt64.toBitVec.toInt := rfl
  have size : thresholdSize threshold = threshold.toInt64.toUInt64.toBitVec.toNat := rfl
  have bound := threshold.toInt64.toUInt64.toBitVec.isLt
  rw [bits, BitVec.toInt_eq_toNat_cond] at wide
  rw [size]
  split at wide <;> omega

/-- What a critical section leaves behind. -/
structure Section (T : Type) where
  queue : List T
  event : Option (QueueEvent T)
  notifies : Bool

def push (value : T) (queue : List T) : Section T :=
  ⟨pushBack queue value, some (.inserted value queue.length), true⟩

/-- `none`: the thread waits. -/
def pushData (value : T) (threshold : Int32) (queue : List T) : Option (Section T) :=
  if queue.length ≥ thresholdSize threshold then none else some (push value queue)

def tryAndPop : List T → Section T
  | [] => ⟨[], none, false⟩
  | value :: rest => ⟨rest, some (.removed value), false⟩

def waitAndPop : List T → Option (Section T)
  | [] => none
  | value :: rest => some ⟨rest, some (.removed value), false⟩

def waitAndPopValue : List T → Option (Section T)
  | [] => none
  | value :: rest => some ⟨rest, some (.removed value), true⟩

/-- With its time over, the call returns instead of waiting. -/
def waitForAndPop (timedOut : Bool) : List T → Option (Section T)
  | [] => if timedOut then some ⟨[], none, false⟩ else none
  | value :: rest => some ⟨rest, some (.removed value), false⟩

def critical (timedOut : Bool) (queue : List T) : Operation T → Option (Section T)
  | .push value => some (push value queue)
  | .pushData value threshold => pushData value threshold queue
  | .tryAndPop => some (tryAndPop queue)
  | .waitAndPop => waitAndPop queue
  | .waitAndPopValue => waitAndPopValue queue
  | .waitForAndPop => waitForAndPop timedOut queue

inductive Step (τ T : Type) where
  | call (t : τ) (operation : Operation T)
  /-- The thread locks the mutex and runs its critical section. -/
  | lock (t : τ)
  /-- A spurious wake-up. -/
  | wake (t : τ)
  /-- The time of `waitForAndPop` is over. -/
  | expire (t : τ)
  | notifyAll (t : τ)

def initial : RingBuffer τ T := ⟨[], fun _ => .idle, []⟩

variable [DecidableEq τ]

def move (s : RingBuffer τ T) (t : τ) (position : CallPosition T) : RingBuffer τ T :=
  { s with position := Function.update s.position t position }

@[simp] theorem move_self (s : RingBuffer τ T) (t : τ) (position : CallPosition T) :
    (s.move t position).position t = position :=
  Function.update_self ..

theorem move_other (s : RingBuffer τ T) {t u : τ} (other : u ≠ t) (position : CallPosition T) :
    (s.move t position).position u = s.position u :=
  Function.update_of_ne other ..

/-- The thread waits, or leaves the critical section with its effect. -/
def enter (s : RingBuffer τ T) (t : τ) (timedOut : Bool) (operation : Operation T) :
    RingBuffer τ T :=
  match critical timedOut s.queue operation with
  | none => s.move t (.parked operation)
  | some after =>
    { s.move t (if after.notifies then .notifying else .idle) with
      queue := after.queue
      history := s.history ++ after.event.toList }

/-- The call that a thread is about to run under the lock, and whether its time is over. -/
def locking : CallPosition T → Option (Operation T × Bool)
  | .entering operation | .woken operation => some (operation, false)
  | .expired => some (.waitForAndPop, true)
  | _ => none

/-- A parked thread as `notify_all` leaves it. -/
def notified : CallPosition T → CallPosition T
  | .parked operation => .woken operation
  | position => position

def perform (s : RingBuffer τ T) : Step τ T → RingBuffer τ T
  | .call t operation =>
    match s.position t with
    | .idle => s.move t (.entering operation)
    | _ => s
  | .lock t =>
    match locking (s.position t) with
    | some (operation, timedOut) => s.enter t timedOut operation
    | none => s
  | .wake t =>
    match s.position t with
    | .parked operation => s.move t (.woken operation)
    | _ => s
  | .expire t =>
    match s.position t with
    | .parked .waitForAndPop => s.move t .expired
    | _ => s
  | .notifyAll t =>
    match s.position t with
    | .notifying =>
      { s with position := Function.update (fun u => notified (s.position u)) t .idle }
    | _ => s

abbrev run (steps : List (Step τ T)) : RingBuffer τ T := Transition.run perform initial steps

/-- What a critical section can do: insert, remove the front element, or nothing. -/
inductive Critical (queue : List T) (operation : Operation T) : Section T → Prop where
  | inserts (value : T)
      (asked : operation = .push value ∨ ∃ threshold, operation = .pushData value threshold ∧
        queue.length < thresholdSize threshold) :
      Critical queue operation (push value queue)
  | removes (value : T) (rest : List T) (front : queue = value :: rest) (notifies : Bool)
      (asked : operation = .waitAndPopValue ∧ notifies = true ∨
        operation.popsSilently ∧ notifies = false) :
      Critical queue operation ⟨rest, some (.removed value), notifies⟩
  | nothing (empty : queue = []) : Critical queue operation ⟨[], none, false⟩

theorem critical_cases {timedOut : Bool} {queue : List T} {operation : Operation T}
    {after : Section T} (left : critical timedOut queue operation = some after) :
    Critical queue operation after := by
  cases operation with
  | push value =>
    cases left
    exact .inserts value (Or.inl rfl)
  | pushData value threshold =>
    simp only [critical, pushData] at left
    split at left
    · contradiction
    · rename_i room
      cases left
      exact .inserts value (Or.inr ⟨threshold, rfl, Nat.not_le.mp room⟩)
  | tryAndPop =>
    cases queue <;> cases left
    · exact .nothing rfl
    · exact .removes _ _ rfl _ (Or.inr ⟨rfl, rfl⟩)
  | waitAndPop =>
    cases queue <;> cases left
    exact .removes _ _ rfl _ (Or.inr ⟨rfl, rfl⟩)
  | waitAndPopValue =>
    cases queue <;> cases left
    exact .removes _ _ rfl _ (Or.inl ⟨rfl, rfl⟩)
  | waitForAndPop =>
    cases queue with
    | nil =>
      simp only [critical, waitForAndPop] at left
      split at left
      · cases left
        exact .nothing rfl
      · contradiction
    | cons value rest =>
      cases left
      exact .removes _ _ rfl _ (Or.inr ⟨rfl, rfl⟩)

/-- A step leaves the queue and the history alone, or is a critical section. -/
inductive Performed (s : RingBuffer τ T) (step : Step τ T) : Prop where
  | silent (queue : (s.perform step).queue = s.queue)
      (history : (s.perform step).history = s.history)
  | locked (t : τ) (operation : Operation T) (timedOut : Bool) (after : Section T)
      (lock : step = .lock t) (entered : locking (s.position t) = some (operation, timedOut))
      (left : critical timedOut s.queue operation = some after)
      (queue : (s.perform step).queue = after.queue)
      (history : (s.perform step).history = s.history ++ after.event.toList)

theorem perform_cases (s : RingBuffer τ T) (step : Step τ T) : Performed s step := by
  cases step with
  | call t operation =>
    apply Performed.silent <;> simp only [perform] <;> split <;> rfl
  | wake t =>
    apply Performed.silent <;> simp only [perform] <;> split <;> rfl
  | expire t =>
    apply Performed.silent <;> simp only [perform] <;> split <;> rfl
  | notifyAll t =>
    apply Performed.silent <;> simp only [perform] <;> split <;> rfl
  | lock t =>
    cases entered : locking (s.position t) with
    | none => apply Performed.silent <;> simp only [perform, entered]
    | some call =>
      obtain ⟨operation, timedOut⟩ := call
      cases left : critical timedOut s.queue operation with
      | none => apply Performed.silent <;> simp only [perform, entered, enter, left] <;> rfl
      | some after =>
        apply Performed.locked t operation timedOut after rfl entered left <;>
          simp only [perform, entered, enter, left]

end RingBuffer
end Iceflow
