import Mathlib.Data.List.Nodup
import Mathlib.Data.List.Perm.Basic

/-! Tables of entries kept under handles. A handle is issued at most once over
the life of a table, so removing by handle cannot hit a later entry. The
allocator is a parameter: only its freshness is used. -/
namespace Registration

/-- Allocation of handles: a new handle differs from all handles given out. -/
structure Allocator (H : Type*) where
  next : List H → H
  next_not_mem : ∀ issued, next issued ∉ issued

structure Registry (H α : Type*) where
  issued : List H
  entries : List (H × α)
  entries_issued : ∀ entry ∈ entries, entry.1 ∈ issued
  handles_nodup : (entries.map Prod.fst).Nodup

namespace Registry
variable {H α : Type*}

def empty : Registry H α := ⟨[], [], by simp, by simp⟩

/-- The table with a new entry at its end, and the handle it was given. -/
def register (allocator : Allocator H) (table : Registry H α) (entry : α) :
    Registry H α × H :=
  let handle := allocator.next table.issued
  (⟨handle :: table.issued, table.entries ++ [(handle, entry)],
    by
      intro e member
      rcases List.mem_append.mp member with old | new
      · exact List.mem_cons_of_mem _ (table.entries_issued e old)
      · rw [List.mem_singleton.mp new]
        exact List.mem_cons_self,
    by
      rw [List.map_append, List.map_singleton, List.nodup_append]
      refine ⟨table.handles_nodup, List.nodup_singleton _, ?_⟩
      intro h used h' new same
      obtain ⟨e, member, rfl⟩ := List.mem_map.mp used
      obtain rfl := List.mem_singleton.mp new
      have reused : handle ∈ table.issued :=
        (show e.1 = handle from same) ▸ table.entries_issued e member
      exact allocator.next_not_mem table.issued reused⟩,
   handle)

@[simp] theorem entries_empty : (empty : Registry H α).entries = [] := rfl

@[simp] theorem entries_register (allocator : Allocator H) (table : Registry H α) (entry : α) :
    (table.register allocator entry).1.entries =
      table.entries ++ [((table.register allocator entry).2, entry)] := rfl

@[simp] theorem issued_register (allocator : Allocator H) (table : Registry H α) (entry : α) :
    (table.register allocator entry).1.issued =
      (table.register allocator entry).2 :: table.issued := rfl

theorem register_fresh (allocator : Allocator H) (table : Registry H α) (entry : α) :
    (table.register allocator entry).2 ∉ table.issued :=
  allocator.next_not_mem table.issued

theorem entry_unique {table : Registry H α} {handle : H} {first second : α}
    (hf : (handle, first) ∈ table.entries) (hs : (handle, second) ∈ table.entries) :
    first = second :=
  congrArg Prod.snd (List.inj_on_of_nodup_map table.handles_nodup hf hs rfl)

variable [DecidableEq H]

def unregister (table : Registry H α) (handle : H) : Registry H α :=
  ⟨table.issued, table.entries.filter (fun e => e.1 ≠ handle),
    fun e member => table.entries_issued e (List.mem_of_mem_filter member),
    table.handles_nodup.sublist (List.filter_sublist.map _)⟩

def unregisterAll (table : Registry H α) (handles : List H) : Registry H α :=
  handles.foldl unregister table

def find? (table : Registry H α) (handle : H) : Option α :=
  (table.entries.find? (fun e => e.1 = handle)).map Prod.snd

@[simp] theorem issued_unregisterAll (table : Registry H α) (handles : List H) :
    (table.unregisterAll handles).issued = table.issued := by
  induction handles generalizing table with
  | nil => rfl
  | cons h rest ih => exact ih (table.unregister h)

@[simp] theorem entries_unregisterAll (table : Registry H α) (handles : List H) :
    (table.unregisterAll handles).entries = table.entries.filter (fun e => e.1 ∉ handles) := by
  induction handles generalizing table with
  | nil => simp [unregisterAll]
  | cons h rest ih =>
    change ((table.unregister h).unregisterAll rest).entries = _
    rw [ih]
    simp only [unregister, List.filter_filter, List.mem_cons, not_or, Bool.decide_and,
      ne_eq, Bool.and_comm]

theorem mem_of_find? {table : Registry H α} {handle : H} {entry : α}
    (found : table.find? handle = some entry) : (handle, entry) ∈ table.entries := by
  simp only [find?, Option.map_eq_some_iff] at found
  obtain ⟨⟨h, e⟩, found, rfl⟩ := found
  have same : h = handle := by simpa using List.find?_some found
  exact same ▸ List.mem_of_find?_eq_some found

theorem find?_of_mem {table : Registry H α} {handle : H} {entry : α}
    (member : (handle, entry) ∈ table.entries) : table.find? handle = some entry := by
  cases found : table.find? handle with
  | some other => rw [entry_unique member (mem_of_find? found)]
  | none =>
    simp only [find?, Option.map_eq_none_iff, List.find?_eq_none, decide_eq_true_eq] at found
    exact absurd rfl (found _ member)

end Registry
end Registration
