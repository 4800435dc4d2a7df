import Mathlib.Data.List.Forall2

/-! When computations that may fail succeed: sequences, traversals of lists, and folds
that test each element. -/
namespace Results
variable {α β γ ε : Type}

theorem bind_ok {x : Except ε α} {f : α → Except ε β} {b : β} :
    (x >>= f) = .ok b ↔ ∃ a, x = .ok a ∧ f a = .ok b := by
  cases x <;> simp [bind, Except.bind]

theorem pure_ok {a b : α} : (pure a : Except ε α) = .ok b ↔ a = b := by
  simp [pure, Except.pure]

theorem mapM_ok {f : α → Except ε β} {xs : List α} {ys : List β} :
    xs.mapM f = .ok ys ↔ List.Forall₂ (fun x y => f x = .ok y) xs ys := by
  induction xs generalizing ys with
  | nil =>
    rw [List.mapM_nil, pure_ok, List.forall₂_nil_left_iff, eq_comm]
  | cons x rest ih =>
    rw [List.mapM_cons, bind_ok, List.forall₂_cons_left_iff]
    constructor
    · rintro ⟨y, first, later⟩
      obtain ⟨tail, rest_ok, made⟩ := bind_ok.mp later
      exact ⟨y, tail, first, ih.mp rest_ok, (pure_ok.mp made).symm⟩
    · rintro ⟨y, tail, first, later, rfl⟩
      exact ⟨y, first, bind_ok.mpr ⟨tail, ih.mpr later, rfl⟩⟩

/-- A relation that holds for each element and some image holds for some list of images. -/
theorem exists_forall₂ {R : α → β → Prop} {xs : List α} :
    (∃ ys, List.Forall₂ R xs ys) ↔ ∀ x ∈ xs, ∃ y, R x y := by
  induction xs with
  | nil => simp
  | cons x rest ih =>
    constructor
    · rintro ⟨ys, all⟩
      obtain ⟨y, tail, first, later, rfl⟩ := List.forall₂_cons_left_iff.mp all
      intro z member
      rcases List.mem_cons.mp member with rfl | member
      · exact ⟨y, first⟩
      · exact ih.mp ⟨tail, later⟩ z member
    · intro each
      obtain ⟨y, first⟩ := each x List.mem_cons_self
      obtain ⟨tail, later⟩ := ih.mpr fun z member => each z (List.mem_cons_of_mem _ member)
      exact ⟨y :: tail, .cons first later⟩

/-- If for images under one relation another relation amounts to a property of the element,
then so it does for lists. -/
theorem forall₂_iff_forall {R S : α → β → Prop} {P : α → Prop} {xs : List α} {ys : List β}
    (related : List.Forall₂ R xs ys) (same : ∀ x ∈ xs, ∀ y, R x y → (S x y ↔ P x)) :
    List.Forall₂ S xs ys ↔ ∀ x ∈ xs, P x := by
  induction related with
  | nil => simp
  | @cons x y rest images first later ih =>
    have head := same x List.mem_cons_self y first
    have tail := ih fun z member => same z (List.mem_cons_of_mem _ member)
    rw [List.forall₂_cons, List.forall_mem_cons, head, tail]

/-- A fold whose steps fail or not whatever was accumulated succeeds if no step fails. -/
theorem exists_foldlM {f : β → α → Except ε β} {P : α → Prop}
    (step : ∀ b x, (∃ next, f b x = .ok next) ↔ P x) {xs : List α} {b : β} :
    (∃ result, xs.foldlM f b = .ok result) ↔ ∀ x ∈ xs, P x := by
  induction xs generalizing b with
  | nil => simp [pure_ok]
  | cons x rest ih =>
    simp only [List.foldlM_cons, bind_ok, List.forall_mem_cons]
    constructor
    · rintro ⟨result, next, first, later⟩
      exact ⟨(step b x).mp ⟨next, first⟩, ih.mp ⟨result, later⟩⟩
    · rintro ⟨holds, others⟩
      obtain ⟨next, first⟩ := (step b x).mpr holds
      obtain ⟨result, later⟩ := ih.mpr others
      exact ⟨result, next, first, later⟩

end Results
