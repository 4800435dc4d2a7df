import Mathlib.Data.List.Nodup
import Mathlib.Data.List.Perm.Basic

/-! Elements of one list that are dispatched to owners. What all owners together are given is
a permutation of what the elements give. -/
namespace Dispatch
variable {ι α β : Type*}

/-- In a list without repetitions one element contributes. -/
theorem flatMap_single {l : List ι} (nodup : l.Nodup) {a : ι} (member : a ∈ l) {f : ι → List β}
    (only : ∀ x ∈ l, x ≠ a → f x = []) : l.flatMap f = f a := by
  induction l with
  | nil => contradiction
  | cons head tail ih =>
    obtain ⟨fresh, distinct⟩ := List.nodup_cons.mp nodup
    rw [List.flatMap_cons]
    rcases List.mem_cons.mp member with rfl | later
    · have rest : tail.flatMap f = [] := by
        rw [List.flatMap_eq_nil_iff]
        intro x inside
        exact only x (List.mem_cons_of_mem _ inside) (fun same => fresh (same ▸ inside))
      rw [rest, List.append_nil]
    · have other : head ≠ a := fun same => fresh (same ▸ later)
      rw [only head List.mem_cons_self other, List.nil_append]
      exact ih distinct later (fun x inside => only x (List.mem_cons_of_mem _ inside))

theorem flatMap_filterMap_perm {owners : List ι} (nodup : owners.Nodup)
    (complete : ∀ i, i ∈ owners) (owner : α → ι) {f : ι → α → Option β}
    (only : ∀ i x, i ≠ owner x → f i x = none) (l : List α) :
    (owners.flatMap (fun i => l.filterMap (f i))).Perm
      (l.filterMap (fun x => f (owner x) x)) := by
  induction l with
  | nil => simp
  | cons x rest ih =>
    have split (g : α → Option β) : (x :: rest).filterMap g = (g x).toList ++ rest.filterMap g := by
      rw [List.filterMap_cons]
      cases g x <;> rfl
    have first : owners.flatMap (fun i => (f i x).toList) = (f (owner x) x).toList :=
      flatMap_single nodup (complete (owner x)) (fun i _ other => by rw [only i x other]; rfl)
    simp only [split]
    refine (List.flatMap_append_perm owners _ _).symm.trans ?_
    rw [first]
    exact ih.append_left _

end Dispatch
