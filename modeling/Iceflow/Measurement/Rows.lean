import Iceflow.Measurement.Flushing
import Iceflow.Foundation.Tables

/-! The text of a measurement file as a table. The names are written as they are, so the
table is one of six columns exactly if no name has a comma or a newline. -/
namespace Iceflow.Measurement

def columnNames : List (List Char) :=
  ["nodeName", "observedObject", "interest", "entryname", "timestamp", "dataSize"].map
    String.toList

def columns (nodeName observedObject : String) (e : Entry) : List (List Char) :=
  [nodeName, observedObject, e.interest, e.entryname, toString e.timestamp, toString e.size].map
    String.toList

theorem toList_header : header.toList = Tables.row ',' '\n' columnNames := by decide

theorem toList_lineToAdd (nodeName observedObject : String) (e : Entry) :
    (lineToAdd nodeName observedObject e).toList =
      Tables.row ',' '\n' (columns nodeName observedObject e) := by
  have comma : ",".toList = [','] := by decide
  have newline : "\n".toList = ['\n'] := by decide
  simp only [lineToAdd, columns, Tables.row, String.toList_append, comma, newline, List.map_cons,
    List.map_nil, List.intercalate_cons_cons, List.intercalate_singleton, List.append_assoc]

theorem toList_contents (nodeName observedObject : String) (entries : List Entry) :
    (contents nodeName observedObject entries).toList =
      Tables.render ',' '\n' (columnNames :: entries.map (columns nodeName observedObject)) := by
  rw [contents, String.toList_append, String.toList_join, toList_header, Tables.render,
    List.flatMap_cons, List.flatMap_map, List.flatMap_map]
  simp only [toList_lineToAdd]

/-- Read back, the file has its header and one row of the six columns for each entry. -/
def Tabular (nodeName observedObject : String) (entries : List Entry) : Prop :=
  Tables.parse ',' '\n' (contents nodeName observedObject entries).toList =
    columnNames :: entries.map (columns nodeName observedObject)

/-- No name in the row has a comma or a newline. -/
def PlainNames (nodeName observedObject : String) (e : Entry) : Prop :=
  ∀ name ∈ [nodeName, observedObject, e.interest, e.entryname],
    ',' ∉ name.toList ∧ '\n' ∉ name.toList

instance (nodeName observedObject : String) (e : Entry) :
    Decidable (PlainNames nodeName observedObject e) :=
  inferInstanceAs (Decidable (∀ name ∈ [nodeName, observedObject, e.interest, e.entryname], _))

theorem repr_plain {n : Nat} {c : Char} (other : c.isDigit = false) : c ∉ n.repr.toList := by
  intro member
  rw [Nat.toList_repr] at member
  have digit := Nat.isDigit_of_mem_toDigits (by decide) (by decide) member
  rw [other] at digit
  contradiction

theorem columns_plain_iff {nodeName observedObject : String} {e : Entry} :
    Tables.Plain ',' '\n' (columns nodeName observedObject e) ↔
      PlainNames nodeName observedObject e := by
  have number (n : UInt64) : ',' ∉ (toString n).toList ∧ '\n' ∉ (toString n).toList :=
    ⟨repr_plain (by decide), repr_plain (by decide)⟩
  constructor
  · rintro ⟨-, commas, newlines⟩ name member
    have column : name.toList ∈ columns nodeName observedObject e := by
      refine List.mem_map_of_mem ?_
      exact List.mem_append_left [toString e.timestamp, toString e.size] member
    exact ⟨commas _ column, newlines _ column⟩
  · intro plain
    have all : ∀ name ∈ [nodeName, observedObject, e.interest, e.entryname] ++
        [toString e.timestamp, toString e.size], ',' ∉ name.toList ∧ '\n' ∉ name.toList := by
      intro name member
      rcases List.mem_append.mp member with text | digits
      · exact plain name text
      · rcases List.mem_cons.mp digits with rfl | digits
        · exact number e.timestamp
        · rw [List.mem_singleton] at digits
          subst digits
          exact number e.size
    refine ⟨List.cons_ne_nil _ _, ?_, ?_⟩ <;> intro field member <;>
      obtain ⟨name, listed, rfl⟩ := List.mem_map.mp member
    · exact (all name listed).1
    · exact (all name listed).2

theorem tabular_iff {nodeName observedObject : String} {entries : List Entry} :
    Tabular nodeName observedObject entries ↔
      ∀ e ∈ entries, PlainNames nodeName observedObject e := by
  have names : Tables.Plain ',' '\n' columnNames := by
    refine ⟨?_, ?_, ?_⟩ <;> decide
  rw [Tabular, toList_contents, Tables.parse_render_iff (by decide), List.forall_mem_cons,
    and_iff_right names, List.forall_mem_map]
  exact forall₂_congr fun e _ => columns_plain_iff

theorem columns_injective (nodeName observedObject : String) :
    Function.Injective (columns nodeName observedObject) := by
  rintro ⟨interest, entryname, timestamp, size⟩ ⟨interest', entryname', timestamp', size'⟩ same
  have number {n n' : UInt64} (same : (toString n).toList = (toString n').toList) : n = n' :=
    UInt64.toNat_inj.mp (repr_inj.mp (String.toList_inj.mp same))
  simp only [columns, List.map_cons, List.map_nil, List.cons.injEq, String.toList_inj, true_and,
    and_true] at same
  obtain ⟨rfl, rfl, timestamps, sizes⟩ := same
  rw [number (congrArg _ timestamps), number (congrArg _ sizes)]

def recordedText (m : Measurement) (disk : Disk) : Option String :=
  let (m, disk) := m.recordToFile true disk
  disk.files.lookup m.fileName

theorem recordedText_eq (m : Measurement) (disk : Disk) :
    m.recordedText disk = some (contents m.nodeName m.observedObject m.entries) := by
  simp only [recordedText, recordToFile, Disk.write, if_true]
  exact AList.lookup_insert _

/-- The two lists give different files, and each file is a table of its entries. -/
structure Unambiguous (m : Measurement) (disk : Disk) (first second : List Entry) : Prop where
  different : { m with entries := first }.recordedText disk ≠
    { m with entries := second }.recordedText disk
  first : Tabular m.nodeName m.observedObject first
  second : Tabular m.nodeName m.observedObject second

/-- Files of different entries are unambiguous exactly if the names in their rows are
plain. -/
theorem unambiguous_iff (m : Measurement) (disk : Disk) {first second : List Entry}
    (distinct : first ≠ second) : m.Unambiguous disk first second ↔
      (∀ e ∈ first, PlainNames m.nodeName m.observedObject e) ∧
        ∀ e ∈ second, PlainNames m.nodeName m.observedObject e := by
  rw [← tabular_iff, ← tabular_iff]
  constructor
  · intro unambiguous
    exact ⟨unambiguous.first, unambiguous.second⟩
  · rintro ⟨table, table'⟩
    refine ⟨?_, table, table'⟩
    intro same
    rw [recordedText_eq, recordedText_eq, Option.some.injEq] at same
    have rows : columnNames :: first.map (columns m.nodeName m.observedObject) =
        columnNames :: second.map (columns m.nodeName m.observedObject) :=
      table.symm.trans ((congrArg _ (congrArg String.toList same)).trans table')
    exact distinct ((columns_injective _ _).list_map (List.cons.inj rows).2)

theorem unambiguous_data : [(⟨"/t2l/0/1", "data", 1000, 4⟩ : Entry)] ≠
      [⟨"/t2l/0/1", "data", 1000, 5⟩, ⟨"/t2l/0/2", "data", 1007, 4⟩] ∧
    Unambiguous ⟨"", "node", "lines2words", "A", 0, [], 100⟩ ⟨[], [], ∅, []⟩
      [⟨"/t2l/0/1", "data", 1000, 4⟩]
      [⟨"/t2l/0/1", "data", 1000, 5⟩, ⟨"/t2l/0/2", "data", 1007, 4⟩] :=
  ⟨by decide, (unambiguous_iff ⟨"", "node", "lines2words", "A", 0, [], 100⟩ ⟨[], [], ∅, []⟩
    (by decide)).mpr ⟨by decide, by decide⟩⟩

/-- A comma in a name is taken for the end of the column. -/
theorem lineToAdd_comma (nodeName observedObject before middle after : String)
    (timestamp size : UInt64) :
    lineToAdd nodeName observedObject ⟨before ++ "," ++ middle, after, timestamp, size⟩ =
      lineToAdd nodeName observedObject ⟨before, middle ++ "," ++ after, timestamp, size⟩ := by
  simp only [lineToAdd, String.append_assoc]

theorem comma_ambiguous : ¬∀ (m : Measurement) (disk : Disk) (first second : List Entry),
    first ≠ second → m.Unambiguous disk first second := by
  intro claim
  have unambiguous := claim ⟨"", "node", "lines2words", "A", 0, [], 100⟩ ⟨[], [], ∅, []⟩
    [⟨"a" ++ "," ++ "b", "c", 0, 0⟩] [⟨"a", "b" ++ "," ++ "c", 0, 0⟩] (by decide)
  apply unambiguous.different
  rw [recordedText_eq, recordedText_eq, contents, contents, List.map_singleton,
    List.map_singleton, lineToAdd_comma]

end Iceflow.Measurement
