import Mathlib.Data.List.AList
import Mathlib.Data.List.Induction

/-! Maps with string keys, for both `std::unordered_map` and `std::map`. The list
of entries is one order of iteration. -/
namespace Iceflow

abbrev StringMap (V : Type) := AList (fun _ : String => V)

namespace StringMap
variable {V W : Type}

/-- `emplace` leaves an existing entry as it is. -/
def emplace (m : StringMap V) (key : String) (value : V) : StringMap V :=
  if key ∈ m then m else m.insert key value

theorem lookup_insert (m : StringMap V) (key : String) (value : V) (e : String) :
    (m.insert key value).lookup e = if e = key then some value else m.lookup e := by
  split
  · rename_i same
    rw [same, AList.lookup_insert]
  · rename_i different
    exact AList.lookup_insert_ne different

theorem mem_iff_lookup {m : StringMap V} {key : String} :
    key ∈ m ↔ ∃ value, m.lookup key = some value := by
  rw [← AList.lookup_isSome, Option.isSome_iff_exists]

theorem mem_of_lookup {m : StringMap V} {key : String} {value : V}
    (found : m.lookup key = some value) : key ∈ m := mem_iff_lookup.mpr ⟨value, found⟩

theorem mem_congr {m m' : StringMap V} {key : String} {view : V → W}
    (same : (m'.lookup key).map view = (m.lookup key).map view) : key ∈ m' ↔ key ∈ m := by
  have both := congrArg Option.isSome same
  rw [Option.isSome_map, Option.isSome_map] at both
  rw [← AList.lookup_isSome, ← AList.lookup_isSome, both]

theorem length_keys {m : StringMap V} {m' : StringMap W} (same : ∀ key, key ∈ m' ↔ key ∈ m) :
    m'.keys.length = m.keys.length :=
  ((List.perm_ext_iff_of_nodup m'.keys_nodup m.keys_nodup).mpr same).length_eq

theorem mem_emplace {m : StringMap V} {key e : String} {value : V} :
    e ∈ m.emplace key value ↔ e = key ∨ e ∈ m := by
  unfold emplace
  split
  · rename_i present
    exact ⟨Or.inr, fun h => h.elim (fun same => same ▸ present) id⟩
  · exact AList.mem_insert m

theorem lookup_emplace_eq (m : StringMap V) (key : String) (value : V) (e : String) :
    (m.emplace key value).lookup e = (m.lookup e).or (if e = key then some value else none) := by
  unfold emplace
  split
  · rename_i present
    split
    · rename_i same
      obtain ⟨old, found⟩ := mem_iff_lookup.mp present
      rw [same, found, Option.some_or]
    · rw [Option.or_none]
  · rename_i absent
    rw [lookup_insert]
    split
    · rename_i same
      rw [same, AList.lookup_eq_none.mpr absent, Option.none_or]
    · rw [Option.or_none]

theorem lookup_emplace {m : StringMap V} {key e : String} {value found : V}
    (after : (m.emplace key value).lookup e = some found) :
    m.lookup e = some found ∨ e = key ∧ found = value := by
  rw [lookup_emplace_eq, Option.or_eq_some_iff] at after
  rcases after with old | ⟨-, new⟩
  · exact Or.inl old
  · obtain ⟨same, value_eq⟩ := Option.ite_none_right_eq_some.mp new
    exact Or.inr ⟨same, (Option.some.inj value_eq).symm⟩

/-- Replacing an entry by one with the same view changes no view. -/
theorem map_lookup_insert {m : StringMap V} {key : String} {old new : V} (view : V → W)
    (found : m.lookup key = some old) (same : view new = view old) (e : String) :
    ((m.insert key new).lookup e).map view = (m.lookup e).map view := by
  rw [lookup_insert]
  split
  · rename_i here
    rw [here, found, Option.map_some, Option.map_some, same]
  · rfl

theorem exists_of_map_eq {after before : Option V} {view : V → W} {new : V}
    (same : after.map view = before.map view) (found : after = some new) :
    ∃ old, before = some old ∧ view new = view old := by
  rw [found, Option.map_some] at same
  obtain ⟨old, found', viewed⟩ := Option.map_eq_some_iff.mp same.symm
  exact ⟨old, found', viewed.symm⟩

/-- A loop that updates the entry of each element, where an update forgets the one before
it: the last element for a key decides. -/
theorem lookup_foldl_insert {A : Type} (name : A → String) (update : A → Option V → V)
    (absorbs : ∀ a b old, update a (some (update b old)) = update a old) (elements : List A)
    (m : StringMap V) (key : String) :
    (elements.foldl (fun m a => m.insert (name a) (update a (m.lookup (name a)))) m).lookup key =
      (elements.filter (fun a => name a = key)).getLast?.elim (m.lookup key)
        (fun a => some (update a (m.lookup key))) := by
  induction elements using List.reverseRecOn with
  | nil => rfl
  | append_singleton before a ih =>
    rw [List.foldl_append, List.foldl_cons, List.foldl_nil, lookup_insert, List.filter_append]
    by_cases same : name a = key
    · subst same
      have last : [a].filter (fun b => name b = name a) = [a] := by simp
      rw [if_pos rfl, ih, last, List.getLast?_concat, Option.elim_some]
      cases (before.filter (fun b => name b = name a)).getLast? with
      | none => rfl
      | some b => rw [Option.elim_some, absorbs]
    · have skipped : [a].filter (fun b => name b = key) = [] := by simp [same]
      rw [if_neg (Ne.symm same), ih, skipped, List.append_nil]

/-- A loop that copies a map, with a view of each value. -/
theorem lookup_foldl_emplace (m : StringMap V) (view : String → V → W) (key : String) :
    (m.entries.foldl (fun result entry => result.emplace entry.1 (view entry.1 entry.2))
      (∅ : StringMap W)).lookup key = (m.lookup key).map (view key) := by
  suffices loop : ∀ (entries : List (Sigma fun _ : String => V)) (result : StringMap W),
      (entries.foldl (fun result entry => result.emplace entry.1 (view entry.1 entry.2))
        result).lookup key = (result.lookup key).or ((entries.dlookup key).map (view key)) by
    rw [loop, AList.lookup_empty, Option.none_or, AList.lookup]
  intro entries
  induction entries with
  | nil => simp
  | cons entry rest ih =>
    intro result
    rw [List.foldl_cons, ih, lookup_emplace_eq, Option.or_assoc]
    by_cases same : key = entry.1
    · subst same
      rw [if_pos rfl, List.dlookup_cons_eq]
      rfl
    · rw [if_neg same, Option.none_or, List.dlookup_cons_ne _ _ same]

end StringMap
end Iceflow
