import Iceflow.Foundation.Transition
import Mathlib.Logic.Function.Basic

/-! `run` and `shutdown` of one object under any interleaving. Each read or write of
`m_running` is one step; other threads take steps while a loop is in
`processEvents`. A thread that returned from `run` may call it again. -/
namespace Iceflow

inductive Position where
  /-- Outside of `run`. -/
  | idle
  /-- The guard has read `false`. -/
  | guarded
  /-- `m_running` was set; the loop thread is not created yet. -/
  | armed
  /-- The loop is about to read its condition. -/
  | testing
  /-- The loop is in `processEvents`. -/
  | processing
  deriving DecidableEq

structure EventLoop (ι : Type) where
  running : Bool
  position : ι → Position

namespace EventLoop

inductive Step (ι : Type) where
  /-- The guard of `run` reads `m_running`. -/
  | guard (t : ι)
  /-- `run` writes `m_running`. -/
  | set (t : ι)
  /-- The loop thread starts, or its creation throws. -/
  | spawn (t : ι) (created : Bool)
  /-- The loop condition reads `m_running`. -/
  | test (t : ι)
  /-- `processEvents` returns, or its exception is caught. -/
  | processed (t : ι)
  /-- Any thread calls `shutdown`. -/
  | shutdown

variable {ι : Type}

/-- The loop has started and not ended. -/
def Active (s : EventLoop ι) (t : ι) : Prop :=
  s.position t = .testing ∨ s.position t = .processing

def Exclusive (s : EventLoop ι) : Prop := ∀ t u, s.Active t → s.Active u → t = u

def AtMostOne (s : EventLoop ι) : Prop :=
  ∀ t u, s.position t ≠ .idle → s.position u ≠ .idle → t = u

theorem Active.not_idle {s : EventLoop ι} {t : ι} (active : s.Active t) :
    s.position t ≠ .idle := by
  rcases active with here | here <;> rw [here] <;> decide

theorem AtMostOne.exclusive {s : EventLoop ι} (inv : AtMostOne s) : Exclusive s :=
  fun t u activeT activeU => inv t u activeT.not_idle activeU.not_idle

theorem not_exclusive {s : EventLoop ι} {t u : ι} (different : u ≠ t)
    (first : s.position t = .testing)
    (second : s.position u = .testing ∨ s.position u = .processing) : ¬ Exclusive s :=
  fun exclusive => different (exclusive u t second (Or.inl first))

def initial : EventLoop ι := ⟨false, fun _ => .idle⟩

variable [DecidableEq ι]

def move (s : EventLoop ι) (t : ι) (position : Position) : EventLoop ι :=
  { s with position := Function.update s.position t position }

/-- The position in which a step of `run` is taken, and what it does there. A guard
that reads `true` throws; a loop condition that reads `false` ends the call. -/
def perform (s : EventLoop ι) : Step ι → EventLoop ι
  | .guard t =>
    if s.position t = .idle then if s.running then s else s.move t .guarded else s
  | .set t => if s.position t = .guarded then { s.move t .armed with running := true } else s
  | .spawn t created =>
    if s.position t = .armed then s.move t (if created then .testing else .idle) else s
  | .test t =>
    if s.position t = .testing then s.move t (if s.running then .processing else .idle) else s
  | .processed t => if s.position t = .processing then s.move t .testing else s
  | .shutdown => { s with running := false }

/-- A guard reads `false` only while no other call is past its guard. -/
def Step.Allowed (s : EventLoop ι) : Step ι → Prop
  | .guard t => s.position t = .idle → s.running = false → ∀ u ≠ t, s.position u = .idle
  | _ => True

theorem position_move (s : EventLoop ι) (t u : ι) (position : Position) :
    (s.move t position).position u = if u = t then position else s.position u := by
  simp [move, Function.update_apply]

/-- Only a guard that reads `false` brings a thread into its call. -/
theorem entered {s : EventLoop ι} {step : Step ι} {t : ι}
    (inside : (s.perform step).position t ≠ .idle) :
    s.position t ≠ .idle ∨
      step = .guard t ∧ s.position t = .idle ∧ s.running = false := by
  by_contra outside
  rw [not_or, not_not] at outside
  obtain ⟨idle, unguarded⟩ := outside
  apply inside
  have other {u : ι} {position here : Position} (at_u : s.position u = here)
      (busy : here ≠ .idle) : (s.move u position).position t = .idle := by
    rw [position_move, if_neg, idle]
    rintro rfl
    exact busy (at_u.symm.trans idle)
  cases step with
  | guard u =>
    simp only [perform]
    split_ifs with here running
    · exact idle
    · rw [position_move, if_neg, idle]
      rintro rfl
      exact unguarded ⟨rfl, idle, by simpa using running⟩
    · exact idle
  | set u | spawn u _ | test u | processed u =>
    -- These steps move a thread that is in its call already.
    simp only [perform]
    split
    · rename_i here
      exact other here (by decide)
    · exact idle
  | shutdown => exact idle

theorem AtMostOne.perform {s : EventLoop ι} {step : Step ι} (inv : AtMostOne s)
    (allowed : step.Allowed s) : AtMostOne (s.perform step) := by
  intro t u insideT insideU
  rcases entered insideT with busyT | ⟨rfl, idleT, free⟩
  · rcases entered insideU with busyU | ⟨rfl, idleU, free⟩
    · exact inv t u busyT busyU
    · by_contra different
      exact busyT (allowed idleU free t different)
  · rcases entered insideU with busyU | ⟨same, _, _⟩
    · by_contra different
      exact busyU (allowed idleT free u (Ne.symm different))
    · exact Step.guard.inj same

theorem run_atMostOne {steps : List (Step ι)}
    (allowed : ∀ x ∈ Transition.steps perform initial steps, x.2.Allowed x.1) :
    AtMostOne (Transition.run perform (initial : EventLoop ι) steps) :=
  Transition.run_preserves (P := AtMostOne) (Q := fun s step => step.Allowed s)
    (fun _ _ inv allowed => inv.perform allowed)
    (fun _ _ inside => absurd rfl inside) allowed

/-- A call that is past its guard can start its loop without any other step. -/
theorem starts_from_armed {s : EventLoop ι} {t : ι} (armed : s.position t = .armed) (u : ι) :
    (s.perform (.spawn t true)).position u = if u = t then .testing else s.position u := by
  simp only [perform, armed, if_true, position_move]

theorem starts_from_guarded {s : EventLoop ι} {t : ι} (guarded : s.position t = .guarded) (u : ι) :
    (Transition.run perform s [.set t, .spawn t true]).position u =
      if u = t then .testing else s.position u := by
  have set : (s.perform (.set t)).position t = .armed := by
    simp only [perform, guarded, if_true, position_move]
  simp only [Transition.run_cons, Transition.run_nil, starts_from_armed set]
  split
  · rfl
  · rename_i different
    simp only [perform, guarded, if_true, position_move, if_neg different]

/-- After a guard that reads `false` while another call is past its guard, two loops
can get active. -/
theorem overlap_reachable {s : EventLoop ι} {t : ι} (violated : ¬ (Step.guard t).Allowed s) :
    ∃ rest, ¬ Exclusive (Transition.run perform s (.guard t :: rest)) := by
  simp only [Step.Allowed, not_forall] at violated
  obtain ⟨idle, free, u, different, busy⟩ := violated
  have entered (v : ι) : (s.perform (.guard t)).position v =
      if v = t then .guarded else s.position v := by
    simp only [perform, idle, free, if_true, Bool.false_eq_true, if_false, position_move]
  have guarded : (s.perform (.guard t)).position t = .guarded := by rw [entered, if_pos rfl]
  have started := starts_from_guarded guarded
  have other : (Transition.run perform (s.perform (.guard t)) [.set t, .spawn t true]).position u =
      s.position u := by rw [started, if_neg different, entered, if_neg different]
  have itself : (Transition.run perform (s.perform (.guard t)) [.set t, .spawn t true]).position t =
      .testing := by rw [started, if_pos rfl]
  cases here : s.position u with
  | idle => exact absurd here busy
  | guarded =>
    refine ⟨[.set t, .spawn t true] ++ [.set u, .spawn u true], ?_⟩
    rw [Transition.run_cons, Transition.run_append]
    have both := starts_from_guarded (other.trans here)
    exact not_exclusive different (by rw [both, if_neg different.symm, itself])
      (Or.inl (by rw [both, if_pos rfl]))
  | armed =>
    refine ⟨[.set t, .spawn t true] ++ [.spawn u true], ?_⟩
    rw [Transition.run_cons, Transition.run_append]
    have both := starts_from_armed (other.trans here)
    exact not_exclusive different (by rw [Transition.run_cons, Transition.run_nil, both,
      if_neg different.symm, itself]) (Or.inl (by rw [Transition.run_cons, Transition.run_nil, both,
        if_pos rfl]))
  | testing =>
    exact ⟨[.set t, .spawn t true],
      not_exclusive different itself (Or.inl (other.trans here))⟩
  | processing =>
    exact ⟨[.set t, .spawn t true], not_exclusive different itself (Or.inr (other.trans here))⟩

/-- What holds in a run: loops exclude each other, and a guard that is read while
another loop is active throws and changes nothing. -/
structure OneLoop (steps : List (Step ι)) : Prop where
  exclusive : ∀ first rest, steps = first ++ rest →
    Exclusive (Transition.run perform (initial : EventLoop ι) first)
  throws : ∀ s t, (s, .guard t) ∈ Transition.steps perform (initial : EventLoop ι) steps →
    s.position t = .idle → (∃ u ≠ t, s.Active u) → s.running = true ∧ s.perform (.guard t) = s

/-- Runs in which no guard reads `false` while another call is past its guard have
one loop at a time; after any other step two loops can get active. -/
theorem one_loop : (∀ steps : List (Step ι),
      (∀ x ∈ Transition.steps perform initial steps, x.2.Allowed x.1) → OneLoop steps) ∧
    ∀ (first : List (Step ι)) (t : ι),
      ¬ (Step.guard t).Allowed (Transition.run perform initial first) →
        ∃ rest, ¬ Exclusive (Transition.run perform initial (first ++ .guard t :: rest)) := by
  constructor
  · intro steps allowed
    constructor
    · rintro first rest rfl
      apply (run_atMostOne _).exclusive
      intro x member
      apply allowed
      obtain ⟨before, after, rfl, reached⟩ := Transition.mem_steps.mp member
      exact Transition.mem_steps.mpr ⟨before, after ++ rest, by simp, reached⟩
    · rintro s t member idle ⟨u, different, active⟩
      have running : s.running = true := by
        by_contra stopped
        exact active.not_idle (allowed _ member idle (by simpa using stopped) u different)
      refine ⟨running, ?_⟩
      simp only [perform, idle, running, if_true]
  · intro first t violated
    obtain ⟨rest, overlap⟩ := overlap_reachable violated
    rw [← Transition.run_append] at overlap
    exact ⟨rest, overlap⟩

/-- A second call throws while the first loop is active and runs after it has ended. -/
def restart : List (Step Bool) :=
  [.guard false, .set false, .spawn false true, .test false, .guard true, .shutdown,
    .processed false, .test false, .guard true, .set true, .spawn true true]

theorem one_loop_restart : OneLoop restart := by
  apply one_loop.1
  simp only [restart, Transition.steps, List.forall_mem_cons, List.not_mem_nil, IsEmpty.forall_iff,
    implies_true, and_true, Step.Allowed]
  decide

/-- After `shutdown` a second call starts its loop while the first is still in
`processEvents`. -/
theorem restart_before_exit :
    ¬ Exclusive (Transition.run perform (initial : EventLoop Bool)
      [.guard false, .set false, .spawn false true, .test false, .shutdown, .guard true,
        .set true, .spawn true true]) :=
  not_exclusive Bool.false_ne_true (by decide) (Or.inr (by decide))

end EventLoop
end Iceflow
