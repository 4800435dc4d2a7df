import Mathlib.Data.List.Flatten
import Mathlib.Data.List.Perm.Subperm
import Iceflow.Measurement.Flushing

/-! Files that cannot be opened. The entries are cleared all the same, so they are lost
exactly where a call that has something to write does not open its file. -/
namespace Iceflow

/-- Not one of the names that do not go down from a directory. -/
def ProperName (name : String) : Prop := ¬(name = "" ∨ name = ".") ∧ name ≠ ".."

theorem Disk.enter_proper {name : String} (proper : ProperName name) (disk : Disk)
    (here : List String) : disk.enter here name =
      if here ++ [name] ∈ disk.directories then some (here ++ [name]) else none := by
  rw [Disk.enter, if_neg proper.1, if_neg proper.2]

/-- A file in a directory of a folder needs that directory. -/
theorem Disk.HasDirectory.mem {disk : Disk} {path folder name : String} {rest : List String}
    (properFolder : ProperName folder) (proper : ProperName name)
    (names : pathNames path = folder :: name :: rest) (more : rest ≠ [])
    (there : disk.HasDirectory path) :
    disk.workingDirectory ++ [folder, name] ∈ disk.directories := by
  rw [Disk.HasDirectory, names, List.dropLast_cons_of_ne_nil (List.cons_ne_nil _ _),
    List.dropLast_cons_of_ne_nil more, List.foldlM_cons, enter_proper properFolder] at there
  split_ifs at there
  · rw [Option.bind_eq_bind, Option.bind_some, List.foldlM_cons, enter_proper proper] at there
    split_ifs at there with present
    · rwa [List.append_assoc] at present
    · cases there
  · cases there

namespace Measurement

namespace Recording
open Transition

def written (s : Recording) : List Entry :=
  (s.disk.parts.filter Part.opened).flatMap Part.rows

/-- Every entry is in memory or in a file as often as it was passed. -/
def NothingLost (s : Recording) : Prop := s.passed.Subperm (s.written ++ s.measurement.entries)

def OpensFile (s : Recording) : Call → Prop
  | .setField _ _ _ _ opens => opens = true ∨
    s.measurement.entries.length + 1 < s.measurement.saveThreshold.toNat
  | .recordToFile opens => opens = true ∨ s.measurement.entries = []

theorem opened_sublist (parts : List Part) :
    ((parts.filter Part.opened).flatMap Part.rows).Sublist (parts.flatMap Part.rows) :=
  List.filter_sublist.flatMap Part.rows

/-- The opened parts have all rows only if the others have none. -/
theorem opened_rows_iff {parts : List Part} :
    (parts.flatMap Part.rows).length ≤ ((parts.filter Part.opened).flatMap Part.rows).length ↔
      ∀ part ∈ parts, part.opened = true ∨ part.rows = [] := by
  induction parts with
  | nil => simp
  | cons part rest ih =>
    have fewer := (opened_sublist rest).length_le
    rw [List.forall_mem_cons, ← ih, List.flatMap_cons, List.length_append]
    cases opened : part.opened with
    | true =>
      rw [List.filter_cons_of_pos opened, List.flatMap_cons, List.length_append]
      simp
    | false =>
      rw [List.filter_cons_of_neg (by simp [opened]), ← List.length_eq_zero_iff]
      constructor
      · intro all
        exact ⟨Or.inr (by omega), by omega⟩
      · rintro ⟨none | none, all⟩
        · contradiction
        · omega

variable {measurementId nodeName observedObject : String} {saveThreshold : UInt64}

theorem nothingLost_iff {s : Recording}
    (recorded : Recorded measurementId nodeName saveThreshold observedObject s) :
    s.NothingLost ↔ ∀ part ∈ s.disk.parts, part.opened = true ∨ part.rows = [] := by
  rw [NothingLost, ← recorded.complete, ← opened_rows_iff]
  constructor
  · intro kept
    have lengths := kept.length_le
    rw [List.length_append, List.length_append] at lengths
    exact Nat.le_of_add_le_add_right lengths
  · intro all
    rw [written, (opened_sublist s.disk.parts).eq_of_length_le all]

theorem opensFile_iff_of_flush {s : Recording} {call : Call}
    (enough : ∀ e, call.entry = some e →
      s.measurement.saveThreshold.toNat ≤ (s.pending call).length) :
    s.OpensFile call ↔ call.opens = true ∨ s.pending call = [] := by
  cases call with
  | setField interestName entryName dataSize currentTimestamp opens =>
    have full := enough _ rfl
    rw [pending, Call.entry, Option.toList_some, List.length_append, List.length_singleton] at full
    simp only [OpensFile, Call.opens, pending, Call.entry, Option.toList_some,
      List.append_eq_nil_iff, List.cons_ne_nil, and_false, or_false, or_iff_left_iff_imp]
    intro few
    omega
  | recordToFile opens =>
    rw [pending, Call.entry, Option.toList_none, List.append_nil]
    rfl

theorem step_nothingLost {s : Recording} (call : Call)
    (recorded : Recorded measurementId nodeName saveThreshold observedObject s)
    (kept : s.NothingLost) : (s.step call).NothingLost ↔ s.OpensFile call := by
  have before := (nothingLost_iff recorded).mp kept
  rw [nothingLost_iff (step_recorded call recorded)]
  obtain ⟨e, entry, few, after⟩ | ⟨enough, after⟩ := s.step_cases call
  · rw [after]
    refine iff_of_true before ?_
    cases call with
    | setField interestName entryName dataSize currentTimestamp opens =>
      rw [pending, List.length_append] at few
      exact Or.inr few
    | recordToFile opens => cases entry
  · rw [after, opensFile_iff_of_flush enough]
    constructor
    · intro all
      exact all ⟨_, call.opens, s.pending call⟩
        (List.mem_append_right _ (List.mem_singleton.mpr rfl))
    · intro opens part member
      rcases List.mem_append.mp member with old | new
      · exact before part old
      · rw [List.mem_singleton] at new
        subst new
        exact opens

/-- Nothing is lost in a run exactly if each of its calls opens its file or has nothing
to write. -/
theorem nothingLost_iff_opensFile (measurementId nodeName : String) (saveThreshold : UInt64)
    (observedObject : String) (creates : Bool) (disk : Disk) (calls : List Call) :
    (∀ first, first <+: calls → (run step (start measurementId nodeName saveThreshold
      observedObject creates disk) first).NothingLost) ↔
    ∀ x ∈ steps step (start measurementId nodeName saveThreshold observedObject creates disk)
      calls, x.1.OpensFile x.2 := by
  have recorded : ∀ calls, Recorded measurementId nodeName saveThreshold observedObject _ :=
    run_recorded creates disk
  have initial : (start measurementId nodeName saveThreshold observedObject creates
      disk).NothingLost := by
    rw [nothingLost_iff (start_recorded creates disk), start_parts]
    rintro part ⟨⟩
  have runs := invariant_iff_steps
    (P := fun s => Recorded measurementId nodeName saveThreshold observedObject s ∧ s.NothingLost)
    (Q := OpensFile) (fun s call => fun ⟨recorded, kept⟩ =>
      (and_iff_right (step_recorded call recorded)).trans (step_nothingLost call recorded kept))
    ⟨start_recorded creates disk, initial⟩ calls
  rw [← runs]
  exact forall₂_congr fun first _ => (and_iff_right (recorded first)).symm

def OpensInDirectories (s : Recording) : Prop :=
  ∀ part ∈ s.disk.parts, part.opened = true → s.disk.HasDirectory part.fileName

theorem step_directories (s : Recording) (call : Call) :
    (s.step call).disk.directories = s.disk.directories ∧
      (s.step call).disk.workingDirectory = s.disk.workingDirectory := by
  obtain ⟨_, -, -, after⟩ | ⟨-, after⟩ := s.step_cases call <;> rw [after] <;> exact ⟨rfl, rfl⟩

theorem run_directories (s : Recording) (calls : List Call) :
    (run step s calls).disk.directories = s.disk.directories ∧
      (run step s calls).disk.workingDirectory = s.disk.workingDirectory := by
  apply run_invariant (P := fun t : Recording => t.disk.directories = s.disk.directories ∧
    t.disk.workingDirectory = s.disk.workingDirectory)
  · intro t call same
    rw [(t.step_directories call).1, (t.step_directories call).2]
    exact same
  · exact ⟨rfl, rfl⟩

theorem toList_partName {before after : List Char}
    (slash : nodeName.toList = before ++ '/' :: after) (number : Int) :
    ∃ ending, (partName measurementId nodeName observedObject number).toList =
      "measurements".toList ++ '/' :: ((measurementId.toList ++ '_' :: before) ++
        '/' :: ending) := by
  have folder : "measurements/".toList = "measurements".toList ++ ['/'] := by decide
  have bar : "_".toList = ['_'] := by decide
  unfold partName
  generalize "_part_" = part
  generalize ".csv" = ending
  simp only [String.toList_append, folder, bar, slash, List.append_assoc, List.cons_append,
    List.nil_append]
  exact ⟨_, rfl⟩

/-- A slash in the node name makes the text before it the name of a directory. -/
theorem pathNames_partName {before after : List Char} (plain : '/' ∉ measurementId.toList)
    (slash : nodeName.toList = before ++ '/' :: after) (first : '/' ∉ before) (number : Int) :
    ∃ rest, rest ≠ [] ∧ pathNames (partName measurementId nodeName observedObject number) =
      "measurements" :: String.ofList (measurementId.toList ++ '_' :: before) :: rest := by
  have solid : '/' ∉ measurementId.toList ++ '_' :: before := by simp [plain, first]
  obtain ⟨ending, text⟩ : ∃ ending,
      (partName measurementId nodeName observedObject number).toList = _ :=
    toList_partName slash number
  rw [pathNames, text, List.splitOn_append_cons_self_of_not_mem (by decide),
    List.splitOn_append_cons_self_of_not_mem solid, List.map_cons, List.map_cons,
    String.ofList_toList]
  refine ⟨_, ?_, rfl⟩
  rw [ne_eq, List.map_eq_nil_iff]
  exact List.splitOn_ne_nil _ _

/-- There is no such directory in a new folder, so no file of the measurement can be
opened. -/
theorem not_hasDirectory {disk : Disk} (plain : '/' ∉ measurementId.toList)
    (slash : '/' ∈ nodeName.toList)
    (flat : ∀ name, disk.workingDirectory ++ ["measurements", name] ∉ disk.directories)
    (number : Int) :
    ¬disk.HasDirectory (partName measurementId nodeName observedObject number) := by
  obtain ⟨before, after, split, first⟩ := List.eq_append_cons_of_mem slash
  obtain ⟨rest, more, names⟩ : ∃ rest, rest ≠ [] ∧
      pathNames (partName measurementId nodeName observedObject number) = _ :=
    pathNames_partName plain split first number
  have bar : '_' ∈ (String.ofList (measurementId.toList ++ '_' :: before)).toList := by simp
  have proper : ProperName (String.ofList (measurementId.toList ++ '_' :: before)) := by
    generalize String.ofList (measurementId.toList ++ '_' :: before) = name at bar
    refine ⟨?_, ?_⟩
    · rintro (rfl | rfl) <;> exact absurd bar (by decide)
    · rintro rfl
      exact absurd bar (by decide)
  have folder : ProperName "measurements" := by
    unfold ProperName
    decide
  intro there
  exact flat _ (there.mem folder proper names more)

theorem start_directories {creates : Bool} {disk : Disk}
    (flat : ∀ name, disk.workingDirectory ++ ["measurements", name] ∉ disk.directories)
    (name : String) :
    (start measurementId nodeName saveThreshold observedObject creates
        disk).disk.workingDirectory ++ ["measurements", name] ∉
      (start measurementId nodeName saveThreshold observedObject creates
        disk).disk.directories := by
  simp only [start, construct, createMeasurementFolder]
  split_ifs
  · exact flat name
  · rw [List.mem_append, not_or]
    refine ⟨flat name, ?_⟩
    simp
  · exact flat name

/-- With a slash in the node name, every run in a new folder writes nothing. -/
theorem nothing_written (creates : Bool) {disk : Disk} (plain : '/' ∉ measurementId.toList)
    (slash : '/' ∈ nodeName.toList)
    (flat : ∀ name, disk.workingDirectory ++ ["measurements", name] ∉ disk.directories)
    (calls : List Call)
    (possible : (run step (start measurementId nodeName saveThreshold observedObject creates
      disk) calls).OpensInDirectories) :
    (run step (start measurementId nodeName saveThreshold observedObject creates disk)
      calls).written = [] := by
  have recorded : Recorded measurementId nodeName saveThreshold observedObject _ :=
    run_recorded creates disk calls
  have none : (run step (start measurementId nodeName saveThreshold observedObject creates disk)
      calls).disk.parts.filter Part.opened = [] := by
    rw [List.filter_eq_nil_iff]
    intro part member opened
    obtain ⟨i, -, name⟩ := recorded.exists_number member
    have there := possible part member opened
    rw [name] at there
    refine not_hasDirectory plain slash ?_ _ there
    obtain ⟨directories, workingDirectory⟩ := run_directories
      (start measurementId nodeName saveThreshold observedObject creates disk) calls
    rw [directories, workingDirectory]
    exact start_directories flat
  rw [written, none, List.flatMap_nil]

/-- The measurement of lines2words, whose file cannot be opened. -/
def lines2words : Recording :=
  start "lines2words" "/node-WordCount/1" 100 "A" true ⟨["home"], [["home"]], ∅, []⟩

def failedFlush : List Call := [.setField "/t2l/0/1" "data" 4 1000 false, .recordToFile false]

theorem failed_flush_loses :
    ¬∀ (measurementId nodeName : String) (saveThreshold : UInt64) (observedObject : String)
      (creates : Bool) (disk : Disk) (calls : List Call),
      (run step (start measurementId nodeName saveThreshold observedObject creates disk)
        calls).OpensInDirectories →
      ∀ first, first <+: calls → (run step (start measurementId nodeName saveThreshold
        observedObject creates disk) first).NothingLost := by
  intro claim
  have parts : (run step lines2words failedFlush).disk.parts =
      [⟨_, false, [⟨"/t2l/0/1", "data", 1000, 4⟩]⟩] := rfl
  have possible : (run step lines2words failedFlush).OpensInDirectories := by
    rw [OpensInDirectories, parts]
    intro part member opened
    rw [List.mem_singleton] at member
    subst member
    cases opened
  have kept := (nothingLost_iff (run_recorded _ _ failedFlush)).mp
    (claim _ _ _ _ _ _ _ possible failedFlush (List.prefix_refl _)) _
    (parts ▸ List.mem_singleton_self _)
  simp at kept

end Recording
end Measurement
end Iceflow
