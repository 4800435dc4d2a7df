import Mathlib.Data.List.Nodup

/-! Owners that hold lists of keys. Lists that repeat no key and share none give
every required key exactly one place, so what is looked for once per place is found
once. -/
namespace Tiling
variable {ι κ α β : Type*}

structure Tiles (required : κ → Prop) (held : ι → List κ) : Prop where
  nodup : ∀ i, (held i).Nodup
  disjoint : ∀ i j k, k ∈ held i → k ∈ held j → i = j
  covers : ∀ k, required k → ∃ i, k ∈ held i

theorem Tiles.exists_owner {required : κ → Prop} {held : ι → List κ} (tiles : Tiles required held)
    {k : κ} (wanted : required k) : ∃ i, k ∈ held i ∧ ∀ j, k ∈ held j → j = i := by
  obtain ⟨i, owned⟩ := tiles.covers k wanted
  exact ⟨i, owned, fun j shared => tiles.disjoint j i k shared owned⟩

theorem Tiles.mono {required required' : κ → Prop} {held : ι → List κ} (tiles : Tiles required held)
    (fewer : ∀ k, required' k → required k) : Tiles required' held :=
  ⟨tiles.nodup, tiles.disjoint, fun k wanted => tiles.covers k (fewer k wanted)⟩

/-- Owners among others that hold nothing. -/
theorem Tiles.extend {required : κ → Prop} {held : ι → List κ} (tiles : Tiles required held)
    {ι' : Type*} (embed : ι → ι') {held' : ι' → List κ} (same : ∀ i, held' (embed i) = held i)
    (others : ∀ j, (∃ i, embed i = j) ∨ held' j = []) : Tiles required held' := by
  have owner {j : ι'} {k : κ} (member : k ∈ held' j) : ∃ i, embed i = j ∧ k ∈ held i := by
    rcases others j with ⟨i, rfl⟩ | nothing
    · exact ⟨i, rfl, same i ▸ member⟩
    · rw [nothing] at member
      cases member
  constructor
  · intro j
    rcases others j with ⟨i, rfl⟩ | nothing
    · rw [same]
      exact tiles.nodup i
    · rw [nothing]
      exact List.nodup_nil
  · intro j j' k member member'
    obtain ⟨i, rfl, held⟩ := owner member
    obtain ⟨i', rfl, held'⟩ := owner member'
    exact congrArg embed (tiles.disjoint i i' k held held')
  · intro k wanted
    obtain ⟨i, member⟩ := tiles.covers k wanted
    exact ⟨embed i, by rw [same]; exact member⟩

/-- Keys paired with an injective image of themselves name their partner once. -/
theorem zip_unique {names : List α} {keys : List κ} {image : κ → β}
    (injective : Function.Injective image) (nodup : keys.Nodup)
    (length : names.length = keys.length) {a a' : α} {b : β}
    (first : (a, b) ∈ names.zip (keys.map image)) (second : (a', b) ∈ names.zip (keys.map image)) :
    a = a' := by
  have images : ((names.zip (keys.map image)).map Prod.snd).Nodup := by
    rw [List.map_snd_zip (by simp [length])]
    exact nodup.map injective
  exact congrArg Prod.fst (List.inj_on_of_nodup_map images first second rfl)

theorem zip_exists {names : List α} {keys : List κ} (image : κ → β)
    (length : names.length = keys.length) {k : κ} (member : k ∈ keys) :
    ∃ a, (a, image k) ∈ names.zip (keys.map image) := by
  have images : (names.zip (keys.map image)).map Prod.snd = keys.map image :=
    List.map_snd_zip (by simp [length])
  have present : image k ∈ (names.zip (keys.map image)).map Prod.snd := by
    rw [images]
    exact List.mem_map_of_mem member
  obtain ⟨⟨a, b⟩, paired, rfl⟩ := List.mem_map.mp present
  exact ⟨a, paired⟩

theorem filterMap_eq_singleton {l : List α} (nodup : l.Nodup) {f : α → Option β} {a : α} {b : β}
    (member : a ∈ l) (found : f a = some b) (only : ∀ x ∈ l, (f x).isSome → x = a) :
    l.filterMap f = [b] := by
  induction l with
  | nil => contradiction
  | cons head tail ih =>
    obtain ⟨fresh, distinct⟩ := List.nodup_cons.mp nodup
    rcases List.mem_cons.mp member with rfl | later
    · have rest : tail.filterMap f = [] := by
        rw [List.filterMap_eq_nil_iff]
        intro x inside
        by_contra defined
        have same := only x (List.mem_cons_of_mem _ inside) (Option.isSome_iff_ne_none.mpr defined)
        exact fresh (same ▸ inside)
      rw [List.filterMap_cons_some found, rest]
    · have undefined : f head = none := by
        by_contra defined
        have same := only head List.mem_cons_self (Option.isSome_iff_ne_none.mpr defined)
        exact fresh (same ▸ later)
      rw [List.filterMap_cons_none undefined]
      exact ih distinct later (fun x inside => only x (List.mem_cons_of_mem _ inside))

end Tiling
