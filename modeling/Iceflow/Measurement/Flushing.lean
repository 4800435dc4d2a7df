import Iceflow.Measurement
import Iceflow.Foundation.Transition

/-! What is written over a whole run. The parts and the entries in memory together are
the entries that were passed, and every part has a name of its own. -/
namespace Iceflow.Measurement

theorem repr_inj {m n : Nat} : m.repr = n.repr ↔ m = n := by
  rw [Nat.repr_eq_ofList_toDigits, Nat.repr_eq_ofList_toDigits, String.ofList_inj]
  constructor
  · intro same
    rw [← Nat.ofDigitChars_ten_toDigits (n := m), same, Nat.ofDigitChars_ten_toDigits]
  · intro same
    rw [same]

/-- As long as the counter does not overflow, it tells the files apart. -/
theorem partName_count_inj {measurementId nodeName observedObject : String} {m n : Nat}
    (small : m < 2 ^ 31) (small' : n < 2 ^ 31) :
    partName measurementId nodeName observedObject (Int32.ofNat m).toInt =
      partName measurementId nodeName observedObject (Int32.ofNat n).toInt ↔ m = n := by
  rw [Int32.toInt_ofNat_of_lt small, Int32.toInt_ofNat_of_lt small']
  unfold partName
  -- Literals are generalized, as unification evaluates them.
  generalize "measurements/" ++ measurementId ++ "_" ++ nodeName ++ "_" ++ observedObject ++
    "_part_" = stem
  generalize ".csv" = ending
  rw [String.append_left_inj ending, String.append_right_inj stem, Int.toString_eq_repr,
    Int.toString_eq_repr]
  exact repr_inj

namespace Recording
open Transition

def pending (s : Recording) (call : Call) : List Entry :=
  s.measurement.entries ++ call.entry.toList

def flushed (s : Recording) (call : Call) : Recording :=
  let (measurement, disk) := recordToFile call.opens
    { s.measurement with entries := s.pending call } s.disk
  ⟨measurement, disk, s.passed ++ call.entry.toList⟩

/-- A call adds its entry in memory below the threshold, or writes a file. -/
theorem step_cases (s : Recording) (call : Call) :
    (∃ e, call.entry = some e ∧
      (s.pending call).length < s.measurement.saveThreshold.toNat ∧
      s.step call = ⟨{ s.measurement with entries := s.pending call }, s.disk,
        s.passed ++ call.entry.toList⟩) ∨
    ((∀ e, call.entry = some e →
      s.measurement.saveThreshold.toNat ≤ (s.pending call).length) ∧
      s.step call = s.flushed call) := by
  cases call with
  | setField interestName entryName dataSize currentTimestamp opens =>
    by_cases enough : s.measurement.saveThreshold.toNat ≤ (s.measurement.entries ++
        [(⟨interestName, entryName, currentTimestamp, dataSize⟩ : Entry)]).length
    · refine Or.inr ⟨fun _ _ => enough, ?_⟩
      simp only [step, Measurement.setField, if_pos enough]
      rfl
    · refine Or.inl ⟨_, rfl, not_le.mp enough, ?_⟩
      simp only [step, Measurement.setField, if_neg enough]
      rfl
  | recordToFile opens =>
    refine Or.inr ⟨?_, ?_⟩
    · rintro e ⟨⟩
    · simp only [step, flushed, pending, Call.entry, Option.toList_none, List.append_nil]
      rfl

/-- What holds in every state of a run, whatever the openings gave. -/
structure Recorded (measurementId nodeName : String) (saveThreshold : UInt64)
    (observedObject : String) (s : Recording) : Prop where
  sameId : s.measurement.measurementId = measurementId
  sameNode : s.measurement.nodeName = nodeName
  sameThreshold : s.measurement.saveThreshold = saveThreshold
  sameObject : s.measurement.observedObject = observedObject
  complete : s.disk.parts.flatMap Part.rows ++ s.measurement.entries = s.passed
  bounded : s.measurement.entries.length < max saveThreshold.toNat 1
  counted : s.measurement.fileCount = Int32.ofNat s.disk.parts.length
  named : s.disk.parts.map Part.fileName = (List.range s.disk.parts.length).map
    (fun i => partName measurementId nodeName observedObject (Int32.ofNat (i + 1)).toInt)
  stored : s.disk.parts.length < 2 ^ 31 → ∀ part ∈ s.disk.parts, part.opened = true →
    s.disk.files.lookup part.fileName = some (contents nodeName observedObject part.rows)

variable {measurementId nodeName observedObject : String} {saveThreshold : UInt64}

theorem Recorded.exists_number {s : Recording}
    (recorded : Recorded measurementId nodeName saveThreshold observedObject s) {part : Part}
    (member : part ∈ s.disk.parts) : ∃ i, i < s.disk.parts.length ∧
      part.fileName = partName measurementId nodeName observedObject
        (Int32.ofNat (i + 1)).toInt := by
  have named : part.fileName ∈ s.disk.parts.map Part.fileName := List.mem_map_of_mem member
  rw [recorded.named, List.mem_map] at named
  obtain ⟨i, before, name⟩ := named
  exact ⟨i, List.mem_range.mp before, name.symm⟩

theorem Recorded.name_fresh {s : Recording}
    (recorded : Recorded measurementId nodeName saveThreshold observedObject s)
    (few : s.disk.parts.length + 1 < 2 ^ 31) {part : Part} (member : part ∈ s.disk.parts) :
    part.fileName ≠ partName measurementId nodeName observedObject
      (Int32.ofNat (s.disk.parts.length + 1)).toInt := by
  obtain ⟨i, before, name⟩ := recorded.exists_number member
  rw [name]
  intro same
  have number := (partName_count_inj (by omega) few).mp same
  omega

theorem start_parts (creates : Bool) (disk : Disk) :
    (start measurementId nodeName saveThreshold observedObject creates disk).disk.parts = [] := by
  simp only [start, construct, createMeasurementFolder]
  split_ifs <;> rfl

theorem start_recorded (creates : Bool) (disk : Disk) :
    Recorded measurementId nodeName saveThreshold observedObject
      (start measurementId nodeName saveThreshold observedObject creates disk) := by
  refine ⟨rfl, rfl, rfl, rfl, ?_, Nat.lt_of_lt_of_le Nat.one_pos (Nat.le_max_right _ 1), ?_, ?_,
    ?_⟩ <;> rw [start_parts]
  · rfl
  · rfl
  · rfl
  · rintro _ part ⟨⟩

theorem step_recorded {s : Recording} (call : Call)
    (recorded : Recorded measurementId nodeName saveThreshold observedObject s) :
    Recorded measurementId nodeName saveThreshold observedObject (s.step call) := by
  have complete := recorded.complete
  obtain ⟨e, -, few, after⟩ | ⟨-, after⟩ := s.step_cases call
  · rw [after]
    rw [recorded.sameThreshold] at few
    exact { recorded with
      complete := by
        rw [← complete, List.append_assoc]
        rfl
      bounded := Nat.lt_of_lt_of_le few (Nat.le_max_left _ 1) }
  · rw [after]
    have count : s.measurement.fileCount + 1 = Int32.ofNat (s.disk.parts.length + 1) := by
      rw [recorded.counted, Int32.ofNat_add]
      rfl
    exact { recorded with
      complete := by
        simp [flushed, recordToFile, Disk.write, pending, ← complete]
      bounded := Nat.lt_of_lt_of_le Nat.one_pos (Nat.le_max_right _ 1)
      counted := by
        simp only [flushed, recordToFile, Disk.write, List.length_append, List.length_singleton]
        exact count
      named := by
        simp only [flushed, recordToFile, Disk.write, List.length_append, List.length_singleton,
          List.range_succ, List.map_append, List.map_cons, List.map_nil, recorded.named, count,
          recorded.sameId, recorded.sameNode, recorded.sameObject]
      stored := by
        simp only [flushed, recordToFile, Disk.write, List.length_append, List.length_singleton,
          count, recorded.sameId, recorded.sameNode, recorded.sameObject]
        intro few part member opened
        rcases List.mem_append.mp member with old | new
        · have kept := recorded.stored (by omega) part old opened
          split_ifs
          · rw [StringMap.lookup_insert, if_neg (recorded.name_fresh few old), kept]
          · exact kept
        · rw [List.mem_singleton] at new
          subst new
          rw [if_pos opened, StringMap.lookup_insert, if_pos rfl] }

theorem run_recorded (creates : Bool) (disk : Disk) (calls : List Call) :
    Recorded measurementId nodeName saveThreshold observedObject
      (run step (start measurementId nodeName saveThreshold observedObject creates disk) calls) :=
  run_invariant (fun _ call recorded => step_recorded call recorded)
    (start_recorded creates disk) calls

end Recording
end Iceflow.Measurement
