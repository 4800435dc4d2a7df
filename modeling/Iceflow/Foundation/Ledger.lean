import Mathlib.Data.List.Basic
import Mathlib.Logic.Function.Basic

/-! A list of entries under handles that several holders share. A holder copies the handles
of all entries and later removes what is under them. Entries are only added at the end, so
what a copy removes are the first entries, and a ledger that counts these needs no handles. -/
namespace Sharing
variable {H K α : Type*}

inductive Touch (K α : Type*) where
  /-- All entries are removed, and new ones are added. -/
  | replaced (entries : List α)
  | added (entries : List α)
  | copied (holder : K)
  | released (holder : K)

structure Ledger (K α : Type*) where
  entries : List α
  /-- How many of the first entries the copy of a holder has. -/
  held : K → Nat

namespace Ledger

def empty : Ledger K α := ⟨[], fun _ => 0⟩

variable [DecidableEq K]

def apply (ledger : Ledger K α) : Touch K α → Ledger K α
  | .replaced entries => ⟨entries, fun _ => 0⟩
  | .added entries => ⟨ledger.entries ++ entries, ledger.held⟩
  | .copied holder =>
    ⟨ledger.entries, Function.update ledger.held holder ledger.entries.length⟩
  | .released holder => ⟨ledger.entries.drop (ledger.held holder),
      fun other => ledger.held other - ledger.held holder⟩

end Ledger

/-- A copy has the handles of the first entries of a table, and of no others. -/
structure Holds (table : List (H × α)) (count : Nat) (copy : List H) : Prop where
  within : count ≤ table.length
  first : ∀ entry ∈ table.take count, entry.1 ∈ copy
  others : ∀ entry ∈ table.drop count, entry.1 ∉ copy

namespace Holds
variable {table : List (H × α)} {count : Nat} {copy : List H}

theorem nothing (fresh : ∀ entry ∈ table, entry.1 ∉ copy) : Holds table 0 copy :=
  ⟨Nat.zero_le _, by simp, fresh⟩

theorem everything (all : ∀ entry ∈ table, entry.1 ∈ copy) : Holds table table.length copy :=
  ⟨Nat.le_refl _, by rwa [List.take_length], by simp⟩

theorem append (holds : Holds table count copy) {new : List (H × α)}
    (fresh : ∀ entry ∈ new, entry.1 ∉ copy) : Holds (table ++ new) count copy := by
  refine ⟨?_, ?_, ?_⟩
  · rw [List.length_append]
    exact Nat.le_add_right_of_le holds.within
  · rw [List.take_append_of_le_length holds.within]
    exact holds.first
  · rw [List.drop_append_of_le_length holds.within]
    intro entry member
    rcases List.mem_append.mp member with old | added
    · exact holds.others entry old
    · exact fresh entry added

theorem drop (holds : Holds table count copy) (removed : Nat) :
    Holds (table.drop removed) (count - removed) copy := by
  refine ⟨?_, ?_, ?_⟩
  · rw [List.length_drop]
    exact Nat.sub_le_sub_right holds.within removed
  · intro entry member
    rw [List.take_drop] at member
    rcases Nat.le_total removed count with before | after
    · rw [Nat.add_sub_cancel' before] at member
      exact holds.first entry (List.mem_of_mem_drop member)
    · rw [Nat.sub_eq_zero_of_le after, Nat.add_zero, List.drop_take_self] at member
      contradiction
  · intro entry member
    rw [List.drop_drop] at member
    exact holds.others entry (List.drop_subset_drop_left table (by omega) member)

variable [DecidableEq H]

theorem filter (holds : Holds table count copy) :
    table.filter (fun entry => entry.1 ∉ copy) = table.drop count := by
  conv_lhs => rw [← List.take_append_drop count table, List.filter_append]
  rw [List.filter_eq_nil_iff.mpr (by simpa using holds.first), List.nil_append,
    List.filter_eq_self]
  simpa using holds.others

end Holds

/-- The ledger has the entries of the table, and counts what each copy has of them. -/
structure Describes (ledger : Ledger K α) (table : List (H × α)) (copies : K → Option (List H)) :
    Prop where
  entries : table.map Prod.snd = ledger.entries
  held : ∀ holder copy, copies holder = some copy → Holds table (ledger.held holder) copy

namespace Describes
variable {ledger : Ledger K α} {table : List (H × α)} {copies copies' : K → Option (List H)}

theorem empty (unheld : ∀ holder, copies holder = none) :
    Describes Ledger.empty ([] : List (H × α)) copies :=
  ⟨rfl, fun holder copy held => by simp [unheld] at held⟩

/-- A holder that gives its copy up changes nothing. -/
theorem anti (describes : Describes ledger table copies)
    (fewer : ∀ holder copy, copies' holder = some copy → copies holder = some copy) :
    Describes ledger table copies' :=
  ⟨describes.entries, fun holder copy held => describes.held holder copy (fewer holder copy held)⟩

variable [DecidableEq K]

theorem replaced (ledger : Ledger K α) {new : List (H × α)}
    (fresh : ∀ holder copy, copies holder = some copy → ∀ entry ∈ new, entry.1 ∉ copy) :
    Describes (ledger.apply (.replaced (new.map Prod.snd))) new copies :=
  ⟨rfl, fun holder copy held => .nothing (fresh holder copy held)⟩

theorem added (describes : Describes ledger table copies) {new : List (H × α)}
    (fresh : ∀ holder copy, copies holder = some copy → ∀ entry ∈ new, entry.1 ∉ copy) :
    Describes (ledger.apply (.added (new.map Prod.snd))) (table ++ new) copies := by
  refine ⟨?_, fun holder copy held =>
    (describes.held holder copy held).append (fresh holder copy held)⟩
  rw [List.map_append, describes.entries]
  rfl

theorem copied (describes : Describes ledger table copies) {holder : K} {copy : List H}
    (all : ∀ entry ∈ table, entry.1 ∈ copy) :
    Describes (ledger.apply (.copied holder)) table (Function.update copies holder (some copy)) := by
  refine ⟨describes.entries, fun other copy' held => ?_⟩
  by_cases same : other = holder
  · subst same
    rw [Function.update_self, Option.some.injEq] at held
    simp only [Ledger.apply, Function.update_self]
    rw [← describes.entries, List.length_map, ← held]
    exact .everything all
  · rw [Function.update_of_ne same] at held
    simp only [Ledger.apply, Function.update_of_ne same]
    exact describes.held other copy' held

theorem released [DecidableEq H] (describes : Describes ledger table copies) {holder : K}
    {copy : List H} (held : copies holder = some copy) :
    Describes (ledger.apply (.released holder)) (table.filter (fun entry => entry.1 ∉ copy))
      (Function.update copies holder none) := by
  rw [(describes.held holder copy held).filter]
  refine ⟨?_, fun other copy' held' => ?_⟩
  · rw [List.map_drop, describes.entries]
    rfl
  · have different : other ≠ holder := by
      rintro rfl
      rw [Function.update_self] at held'
      contradiction
    rw [Function.update_of_ne different] at held'
    exact (describes.held other copy' held').drop _

end Describes
end Sharing
