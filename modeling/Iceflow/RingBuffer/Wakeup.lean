import Iceflow.RingBuffer

/-! Who wakes a parked thread. Of the pops only `waitAndPopValue` notifies; the others
make room without telling the producers. -/
namespace Iceflow
variable {τ T : Type}

namespace RingBuffer

def ready (queue : List T) (operation : Operation T) : Prop :=
  (critical false queue operation).isSome

/-- A thread that could go on is parked only while a `notify_all` is still ahead. -/
def NoLostWakeup (s : RingBuffer τ T) : Prop :=
  ∀ t operation, s.position t = .parked operation → ready s.queue operation →
    ∃ u, s.position u = .notifying

theorem ready_pushData {queue : List T} {value : T} {threshold : Int32} :
    ready queue (.pushData value threshold) ↔ queue.length < thresholdSize threshold := by
  simp only [ready, critical, pushData]
  split <;> simp <;> omega

theorem ready_cons {value : T} {rest : List T} {operation : Operation T} :
    ready (value :: rest) operation ↔
      ∀ pushed threshold, operation = .pushData pushed threshold →
        rest.length + 1 < thresholdSize threshold := by
  cases operation with
  | pushData pushed threshold =>
    rw [ready_pushData]
    simp
  | _ => simp [ready, critical, waitAndPop, waitAndPopValue, waitForAndPop]

/-- What a removal makes ready is a producer that waits for just this element to leave. -/
theorem ready_of_smaller {value : T} {rest : List T} {operation : Operation T}
    (now : ready rest operation) (before : ¬ready (value :: rest) operation) :
    ∃ pushed threshold, operation = .pushData pushed threshold ∧
      thresholdSize threshold = (value :: rest).length := by
  simp only [ready_cons, not_forall] at before
  obtain ⟨pushed, threshold, rfl, full⟩ := before
  rw [ready_pushData] at now
  exact ⟨pushed, threshold, rfl, by rw [List.length_cons]; omega⟩

/-- A silent pop takes an element only while a `notify_all` is still ahead, or while no
producer is parked that waits for just this element to leave. -/
def Wakes (s : RingBuffer τ T) : Step τ T → Prop
  | .lock t =>
    ∀ operation timedOut, locking (s.position t) = some (operation, timedOut) →
      operation.popsSilently → s.queue ≠ [] →
        (∃ u, s.position u = .notifying) ∨
          ∀ u value threshold, s.position u = .parked (.pushData value threshold) →
            thresholdSize threshold ≠ s.queue.length
  | _ => True

theorem wakes_lock {s : RingBuffer τ T} {t : τ} {operation : Operation T} {timedOut : Bool}
    (entered : locking (s.position t) = some (operation, timedOut)) :
    s.Wakes (.lock t) ↔ (operation.popsSilently → s.queue ≠ [] →
      (∃ u, s.position u = .notifying) ∨
        ∀ u value threshold, s.position u = .parked (.pushData value threshold) →
          thresholdSize threshold ≠ s.queue.length) := by
  constructor
  · intro wakes
    exact wakes operation timedOut entered
  · intro wakes operation' timedOut' entered'
    obtain ⟨rfl, rfl⟩ := Prod.mk.inj (Option.some.inj (entered.symm.trans entered'))
    exact wakes

theorem empty_of_waits {queue : List T} {operation : Operation T} {timedOut : Bool}
    (waits : critical timedOut queue operation = none) (silent : operation.popsSilently) :
    queue = [] := by
  cases operation with
  | push | pushData | waitAndPopValue => cases silent
  | tryAndPop => cases waits
  | waitAndPop | waitForAndPop => cases queue <;> first | rfl | cases waits

variable [DecidableEq τ]

theorem notifying_move {s : RingBuffer τ T} {t u : τ} (position : CallPosition T)
    (busy : s.position t ≠ .notifying) (notifying : s.position u = .notifying) :
    (s.move t position).position u = .notifying := by
  have other : u ≠ t := by
    rintro rfl
    exact busy notifying
  rw [move_other s other]
  exact notifying

/-- A step that moves a thread without its `notify_all` ahead and leaves the queue as it
is loses no wake-up, unless it parks a call that could go on. -/
theorem NoLostWakeup.move {s : RingBuffer τ T} (kept : s.NoLostWakeup) {t : τ}
    {position : CallPosition T} (busy : s.position t ≠ .notifying)
    (waits : ∀ operation, position = .parked operation → ¬ready s.queue operation) :
    (s.move t position).NoLostWakeup := by
  intro u operation parked goes
  by_cases same : u = t
  · subst same
    rw [move_self] at parked
    exact absurd goes (waits operation parked)
  · rw [move_other s same] at parked
    obtain ⟨v, notifying⟩ := kept u operation parked goes
    exact ⟨v, notifying_move position busy notifying⟩

theorem not_ready_of_waits {queue : List T} {operation : Operation T} {timedOut : Bool}
    (waits : critical timedOut queue operation = none) : ¬ready queue operation := by
  cases timedOut with
  | false => simp [ready, waits]
  | true =>
    cases operation with
    | push | tryAndPop => cases waits
    | pushData | waitAndPop | waitAndPopValue => simpa [ready, critical] using waits
    | waitForAndPop => cases queue <;> cases waits

theorem locking_busy {position : CallPosition T} {call : Operation T × Bool}
    (entered : locking position = some call) : position ≠ .notifying := by
  rintro rfl
  cases entered

/-- A pop without `notify_all` loses a wake-up exactly when its condition fails. -/
theorem noLostWakeup_silentPop {s s' : RingBuffer τ T} (kept : s.NoLostWakeup) {t : τ}
    {value : T} {rest : List T} (front : s.queue = value :: rest) (queue : s'.queue = rest)
    (busy : s.position t ≠ .notifying) (active : ∀ operation, s.position t ≠ .parked operation)
    (position : s'.position = (s.move t .idle).position) :
    s'.NoLostWakeup ↔ (∃ u, s.position u = .notifying) ∨
      ∀ u value threshold, s.position u = .parked (.pushData value threshold) →
        thresholdSize threshold ≠ s.queue.length := by
  constructor
  · intro kept'
    by_cases some : ∃ u, s.position u = .notifying
    · exact Or.inl some
    · right
      intro u pushed threshold parked held
      have other : u ≠ t := by
        rintro rfl
        exact active _ parked
      have parked' : s'.position u = .parked (.pushData pushed threshold) := by
        rw [position, move_other s other, parked]
      have goes : ready s'.queue (.pushData pushed threshold) := by
        rw [ready_pushData, queue, held, front, List.length_cons]
        omega
      obtain ⟨v, notifying⟩ := kept' u _ parked' goes
      rw [position] at notifying
      by_cases same : v = t
      · subst same
        rw [move_self] at notifying
        cases notifying
      · rw [move_other s same] at notifying
        exact some ⟨v, notifying⟩
  · intro wakes u operation parked goes
    rw [position] at parked
    by_cases same : u = t
    · subst same
      rw [move_self] at parked
      cases parked
    · rw [move_other s same] at parked
      rw [queue] at goes
      have some : ∃ v, s.position v = .notifying := by
        by_cases before : ready s.queue operation
        · exact kept u operation parked before
        · rw [front] at before
          obtain ⟨pushed, threshold, rfl, held⟩ := ready_of_smaller goes before
          rcases wakes with some | none
          · exact some
          · rw [← front] at held
            exact absurd held (none u pushed threshold parked)
      obtain ⟨v, notifying⟩ := some
      refine ⟨v, ?_⟩
      rw [position]
      exact notifying_move .idle busy notifying

theorem noLostWakeup_lock {s : RingBuffer τ T} (kept : s.NoLostWakeup) (t : τ) :
    (s.perform (.lock t)).NoLostWakeup ↔ s.Wakes (.lock t) := by
  cases entered : locking (s.position t) with
  | none => simp [perform, Wakes, entered, kept]
  | some call =>
    obtain ⟨operation, timedOut⟩ := call
    have busy := locking_busy entered
    have active : ∀ parked, s.position t ≠ .parked parked := by
      intro parked same
      rw [same] at entered
      cases entered
    rw [wakes_lock entered]
    cases left : critical timedOut s.queue operation with
    | none =>
      have still : (s.perform (.lock t)).NoLostWakeup := by
        simp only [perform, entered, enter, left]
        apply kept.move busy
        rintro parked ⟨⟩
        exact not_ready_of_waits left
      have empty : operation.popsSilently → s.queue = [] := empty_of_waits left
      exact iff_of_true still fun silent full => absurd (empty silent) full
    | some after =>
      have position : (s.perform (.lock t)).position =
          (s.move t (if after.notifies then .notifying else .idle)).position := by
        simp only [perform, entered, enter, left]
      have queue : (s.perform (.lock t)).queue = after.queue := by
        simp only [perform, entered, enter, left]
      have notifying : after.notifies = true → (s.perform (.lock t)).NoLostWakeup := by
        intro notifies _ _ _ _
        refine ⟨t, ?_⟩
        rw [position, move_self, if_pos notifies]
      cases critical_cases left with
      | inserts value asked =>
        have loud : operation.popsSilently = false := by
          rcases asked with rfl | ⟨_, rfl, _⟩ <;> rfl
        exact iff_of_true (notifying rfl) (by simp [loud])
      | removes value rest front notifies asked =>
        rcases asked with ⟨rfl, rfl⟩ | ⟨silent, rfl⟩
        · exact iff_of_true (notifying rfl) (by simp [Operation.popsSilently])
        · rw [noLostWakeup_silentPop kept front queue busy active position]
          simp [silent, front]
      | nothing empty =>
        have still : (s.perform (.lock t)).NoLostWakeup := by
          have idle : (s.move t .idle).NoLostWakeup := by
            apply kept.move busy
            rintro parked ⟨⟩
          intro u parked
          rw [position, queue]
          have same : ([] : List T) = (s.move t .idle).queue := empty.symm
          rw [same]
          exact idle u parked
        exact iff_of_true still fun _ full => absurd empty full

theorem noLostWakeup_perform {s : RingBuffer τ T} (kept : s.NoLostWakeup)
    (step : Step τ T) : (s.perform step).NoLostWakeup ↔ s.Wakes step := by
  cases step with
  | lock t => exact noLostWakeup_lock kept t
  | call t operation =>
    refine iff_of_true ?_ trivial
    simp only [perform]
    split
    · rename_i idle
      apply kept.move
      · simp [idle]
      · rintro parked ⟨⟩
    · exact kept
  | wake t | expire t =>
    refine iff_of_true ?_ trivial
    simp only [perform]
    split
    · rename_i parked
      apply kept.move
      · simp [parked]
      · rintro woken ⟨⟩
    · exact kept
  | notifyAll t =>
    refine iff_of_true ?_ trivial
    simp only [perform]
    split
    · -- Nobody is parked any more.
      intro u operation parked
      by_cases same : u = t
      · subst same
        simp at parked
      · simp only [Function.update_of_ne same] at parked
        cases position : s.position u <;> simp [position, notified] at parked
    · exact kept

/-- No wake-up is lost in any state of a run exactly when all its silent pops meet their
condition. -/
theorem run_noLostWakeup (steps : List (Step τ T)) :
    (∀ first, first <+: steps → NoLostWakeup (run first)) ↔
      ∀ x ∈ Transition.steps perform initial steps, Wakes x.1 x.2 :=
  Transition.invariant_iff_steps (P := NoLostWakeup) (fun _ step kept =>
    noLostWakeup_perform kept step) (by rintro t operation ⟨⟩) steps

inductive Thread where
  | producer
  | waiting
  | consumer
  deriving DecidableEq

/-- One producer waits for room; `tryAndPop` of the consumer makes it and tells nobody. -/
def stuckProducer : List (Step Thread Nat) :=
  [.call .producer (.pushData 7 1), .lock .producer, .notifyAll .producer,
    .call .waiting (.pushData 8 1), .lock .waiting, .call .consumer .tryAndPop, .lock .consumer]

theorem thresholds_stuckProducer {t : Thread} {value : Nat} {threshold : Int32}
    (called : Step.call t (.pushData value threshold) ∈ stuckProducer) : threshold = 1 := by
  simp only [stuckProducer, List.mem_cons, List.not_mem_nil, Step.call.injEq,
    Operation.pushData.injEq, reduceCtorEq, or_false, false_or, and_false] at called
  rcases called with ⟨_, _, one⟩ | ⟨_, _, one⟩ <;> exact one

theorem stuckProducer_loses :
    ¬∀ steps : List (Step Thread Nat),
      (∀ t value threshold, Step.call t (.pushData value threshold) ∈ steps →
        1 ≤ threshold.toInt ∧ threshold.toInt ≤ capacity) →
      NoLostWakeup (run steps) := by
  intro claim
  have thresholds : ∀ t value threshold,
      Step.call t (.pushData value threshold) ∈ stuckProducer →
        1 ≤ threshold.toInt ∧ threshold.toInt ≤ capacity := by
    intro t value threshold called
    rw [thresholds_stuckProducer called]
    decide
  have parked : (run stuckProducer).position .waiting = .parked (.pushData 8 1) := by decide
  have room : ready (run stuckProducer).queue (.pushData 8 1) := by
    rw [ready_pushData]
    decide
  have silent : ∀ u, (run stuckProducer).position u ≠ .notifying := by
    intro u
    cases u <;> decide
  obtain ⟨u, notifying⟩ := claim stuckProducer thresholds .waiting _ parked room
  exact silent u notifying

end RingBuffer
end Iceflow
