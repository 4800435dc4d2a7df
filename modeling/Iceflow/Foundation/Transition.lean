import Mathlib.Algebra.GroupWithZero.Nat
import Mathlib.Data.List.Basic

/-! Runs of total labelled transition functions. A label that is not enabled
leaves the state as it is, so every list of labels is a run. The recorded
steps pair each label with the state it was taken in; conditions on a run are
conditions on its recorded steps. -/
namespace Transition
variable {S L : Type*} (step : S → L → S)

def run (s : S) (labels : List L) : S := labels.foldl step s

/-- Every label of the run with the state it was taken in. -/
def steps : S → List L → List (S × L)
  | _, [] => []
  | s, l :: rest => (s, l) :: steps (step s l) rest

@[simp] theorem run_nil (s : S) : run step s [] = s := rfl

@[simp] theorem run_cons (s : S) (l : L) (rest : List L) :
    run step s (l :: rest) = run step (step s l) rest := rfl

theorem run_append (s : S) (first second : List L) :
    run step s (first ++ second) = run step (run step s first) second :=
  List.foldl_append

theorem steps_append (s : S) (first second : List L) :
    steps step s (first ++ second) =
      steps step s first ++ steps step (run step s first) second := by
  induction first generalizing s with
  | nil => rfl
  | cons l rest ih => rw [List.cons_append, steps, ih, steps, List.cons_append, run_cons]

variable {step}

/-- A recorded step is taken in the state that the labels before it reach. -/
theorem mem_steps {s t : S} {l : L} {labels : List L} :
    (t, l) ∈ steps step s labels ↔
      ∃ first rest, labels = first ++ l :: rest ∧ t = run step s first := by
  induction labels generalizing s with
  | nil => simp [steps]
  | cons head tail ih =>
    simp only [steps, List.mem_cons, Prod.mk.injEq, ih]
    constructor
    · rintro (⟨rfl, rfl⟩ | ⟨first, rest, rfl, rfl⟩)
      · exact ⟨[], tail, rfl, rfl⟩
      · exact ⟨head :: first, rest, rfl, rfl⟩
    · rintro ⟨first, rest, split, rfl⟩
      cases first with
      | nil =>
        obtain ⟨rfl, rfl⟩ := List.cons_eq_cons.mp split
        exact Or.inl ⟨rfl, rfl⟩
      | cons next first =>
        obtain ⟨rfl, rfl⟩ := List.cons_eq_cons.mp split
        exact Or.inr ⟨first, rest, rfl, rfl⟩

/-- What every step preserves where its condition holds is preserved by every
run whose steps all meet the condition. -/
theorem run_preserves {P : S → Prop} {Q : S → L → Prop}
    (preserves : ∀ s l, P s → Q s l → P (step s l)) {s : S} (initial : P s)
    {labels : List L} (conditions : ∀ x ∈ steps step s labels, Q x.1 x.2) :
    P (run step s labels) := by
  induction labels generalizing s with
  | nil => exact initial
  | cons l rest ih =>
    have head : Q s l := conditions (s, l) (by simp [steps])
    exact ih (preserves s l initial head)
      (fun x member => conditions x (by simp [steps, member]))

theorem run_preserves_labels {P : S → Prop} {labels : List L}
    (preserves : ∀ s, ∀ l ∈ labels, P s → P (step s l)) {s : S} (initial : P s) :
    P (run step s labels) := by
  induction labels generalizing s with
  | nil => exact initial
  | cons l rest ih =>
    have next : P (step s l) := preserves s l List.mem_cons_self initial
    exact ih (fun s l member => preserves s l (List.mem_cons_of_mem _ member)) next

theorem run_invariant {P : S → Prop} (preserves : ∀ s l, P s → P (step s l))
    {s : S} (initial : P s) (labels : List L) : P (run step s labels) :=
  run_preserves (Q := fun _ _ => True) (fun s l holds _ => preserves s l holds) initial
    (fun _ _ => trivial)

/-- A log holds what the steps of a run have added to it, in order. -/
theorem run_log {A : Type*} (log : S → List A) (adds : S → L → Option A)
    (appends : ∀ s l, log (step s l) = log s ++ (adds s l).toList) (s : S) (labels : List L) :
    log (run step s labels) =
      log s ++ (steps step s labels).filterMap (fun x => adds x.1 x.2) := by
  induction labels generalizing s with
  | nil => exact (List.append_nil _).symm
  | cons l rest ih =>
    rw [run_cons, ih, appends, List.append_assoc, steps]
    cases added : adds s l <;> simp [added]

theorem steps_invariant {P : S → Prop} (preserves : ∀ s l, P s → P (step s l))
    {s : S} (initial : P s) {labels : List L} :
    ∀ x ∈ steps step s labels, P x.1 := by
  rintro ⟨t, l⟩ member
  obtain ⟨first, _, _, rfl⟩ := mem_steps.mp member
  exact run_invariant preserves initial first

/-- Amortized counting: where a step pays for a rise of the potential, and for being marked,
with its credit, a run has at most as many marked steps as its credits and the initial
potential allow. -/
theorem marked_le {P : S → Prop} {Q : L → Prop} (potential : S → Nat) (credit : L → Nat)
    (marked : S → L → Bool) (preserves : ∀ s l, P s → Q l → P (step s l))
    (pays : ∀ s l, P s → Q l →
      potential (step s l) + (if marked s l then 1 else 0) ≤ potential s + credit l)
    {s : S} (initial : P s) {labels : List L} (conditions : ∀ l ∈ labels, Q l) :
    potential (run step s labels) + (steps step s labels).countP (fun x => marked x.1 x.2) ≤
      potential s + (labels.map credit).sum := by
  induction labels generalizing s with
  | nil => simp [steps]
  | cons l rest ih =>
    have here : Q l := conditions l List.mem_cons_self
    have first := pays s l initial here
    have later := ih (preserves s l initial here)
      (fun l member => conditions l (List.mem_cons_of_mem _ member))
    simp only [run_cons, steps, List.countP_cons, List.map_cons, List.sum_cons]
    omega

/-- Where a condition decides whether a step keeps the invariant, the invariant holds in
all states of a run exactly when all its steps meet the condition. -/
theorem invariant_iff_steps {P : S → Prop} {Q : S → L → Prop}
    (keeps : ∀ s l, P s → (P (step s l) ↔ Q s l)) {s : S} (initial : P s) (labels : List L) :
    (∀ first, first <+: labels → P (run step s first)) ↔
      ∀ x ∈ steps step s labels, Q x.1 x.2 := by
  induction labels generalizing s with
  | nil =>
    constructor
    · rintro _ x ⟨⟩
    · intro _ first before
      rw [List.prefix_nil.mp before]
      exact initial
  | cons l rest ih =>
    constructor
    · intro holds
      have next : P (step s l) := holds [l] ⟨rest, rfl⟩
      have later := (ih next).mp fun first before =>
        holds (l :: first) (List.cons_prefix_cons.mpr ⟨rfl, before⟩)
      intro x member
      rcases List.mem_cons.mp member with rfl | member
      · exact (keeps s l initial).mp next
      · exact later x member
    · intro conditions first before
      cases first with
      | nil => exact initial
      | cons head first =>
        obtain ⟨rfl, inner⟩ := List.cons_prefix_cons.mp before
        have next : P (step s head) :=
          (keeps s head initial).mpr (conditions (s, head) (by simp [steps]))
        have later : ∀ x ∈ steps step (step s head) rest, Q x.1 x.2 := by
          intro x member
          exact conditions x (by simp [steps, member])
        exact (ih next).mpr later first inner

end Transition
