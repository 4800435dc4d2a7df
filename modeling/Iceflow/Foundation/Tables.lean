import Iceflow.Foundation.Words

/-! Tables as text: fields with separators between them, and a newline after each row.
Without quotes a table can be read back exactly if no field has a separator. -/
namespace Tables
variable {α : Type*} (comma newline : α)

def row (fields : List (List α)) : List α := [comma].intercalate fields ++ [newline]

def render (rows : List (List (List α))) : List α := rows.flatMap (row comma newline)

/-- A row that stays one line with these fields. -/
structure Plain (fields : List (List α)) : Prop where
  nonempty : fields ≠ []
  commas : ∀ field ∈ fields, comma ∉ field
  newlines : ∀ field ∈ fields, newline ∉ field

variable [DecidableEq α]

def parse (text : List α) : List (List (List α)) :=
  (Words.lines newline text).map (List.splitOn comma)

variable {comma newline}

theorem lines_go_append {first : List α} (plain : newline ∉ first) (line rest : List α) :
    Words.lines.go newline line (first ++ newline :: rest) =
      (line ++ first) :: Words.lines newline rest := by
  induction first generalizing line with
  | nil => simp [Words.lines.go, Words.lines]
  | cons c first ih =>
    obtain ⟨different, plain⟩ := List.ne_and_not_mem_of_not_mem_cons plain
    rw [List.cons_append, Words.lines.go, if_neg different.symm, ih plain, List.append_assoc,
      List.singleton_append]

theorem not_mem_of_mem_lines {line text : List α} (member : line ∈ Words.lines newline text) :
    newline ∉ line := by
  have loop (begun rest : List α) (plain : newline ∉ begun)
      (member : line ∈ Words.lines.go newline begun rest) : newline ∉ line := by
    induction rest generalizing begun with
    | nil =>
      rw [Words.lines.go] at member
      split at member
      · contradiction
      · rw [List.mem_singleton] at member
        rwa [member]
    | cons c rest ih =>
      rw [Words.lines.go] at member
      split at member
      · rcases List.mem_cons.mp member with rfl | member
        · exact plain
        · exact ih [] List.not_mem_nil member
      · rename_i different
        refine ih (begun ++ [c]) ?_ member
        rw [List.mem_append, List.mem_singleton, not_or]
        exact ⟨plain, Ne.symm different⟩
  exact loop [] text List.not_mem_nil member

theorem mem_splitOn {text piece : List α} (member : piece ∈ text.splitOn comma) {c : α}
    (inside : c ∈ piece) : c ∈ text ∧ c ≠ comma := by
  induction text generalizing piece with
  | nil =>
    rw [List.splitOn_nil, List.mem_singleton] at member
    subst member
    contradiction
  | cons d rest ih =>
    rw [List.splitOn_cons_eq_if_modifyHead] at member
    split at member
    · rcases List.mem_cons.mp member with rfl | member
      · contradiction
      · exact ⟨List.mem_cons_of_mem d (ih member inside).1, (ih member inside).2⟩
    · rename_i different
      obtain ⟨head, tail, split⟩ := List.exists_cons_of_ne_nil (List.splitOn_ne_nil comma rest)
      rw [split, List.modifyHead_cons] at member
      rcases List.mem_cons.mp member with rfl | member
      · rcases List.mem_cons.mp inside with rfl | inside
        · exact ⟨List.mem_cons_self, by simpa using different⟩
        · have found := ih (split ▸ List.mem_cons_self) inside
          exact ⟨List.mem_cons_of_mem d found.1, found.2⟩
      · have found := ih (split ▸ List.mem_cons_of_mem head member) inside
        exact ⟨List.mem_cons_of_mem d found.1, found.2⟩

/-- Whatever is read has rows that can be written. -/
theorem parse_plain {text : List α} : ∀ fields ∈ parse comma newline text,
    Plain comma newline fields := by
  intro fields member
  obtain ⟨line, there, rfl⟩ := List.mem_map.mp member
  refine ⟨List.splitOn_ne_nil comma line, ?_, ?_⟩
  · intro field member inside
    exact (mem_splitOn member inside).2 rfl
  · intro field member inside
    exact not_mem_of_mem_lines there (mem_splitOn member inside).1

omit [DecidableEq α] in
theorem not_mem_intercalate (distinct : comma ≠ newline) {fields : List (List α)}
    (newlines : ∀ field ∈ fields, newline ∉ field) : newline ∉ [comma].intercalate fields := by
  induction fields with
  | nil => exact List.not_mem_nil
  | cons field rest ih =>
    obtain ⟨plain, later⟩ := List.forall_mem_cons.mp newlines
    cases rest with
    | nil => rwa [List.intercalate_singleton]
    | cons next rest =>
      rw [List.intercalate_cons_cons, List.mem_append, List.mem_append, List.mem_singleton,
        not_or, not_or]
      exact ⟨⟨plain, distinct.symm⟩, ih later⟩

/-- A table can be read back exactly if all its rows are plain. -/
theorem parse_render_iff (distinct : comma ≠ newline) {rows : List (List (List α))} :
    parse comma newline (render comma newline rows) = rows ↔
      ∀ fields ∈ rows, Plain comma newline fields := by
  constructor
  · intro same
    rw [← same]
    exact parse_plain
  · intro plain
    induction rows with
    | nil => rfl
    | cons fields rest ih =>
      obtain ⟨first, later⟩ := List.forall_mem_cons.mp plain
      have line := lines_go_append (not_mem_intercalate distinct first.newlines) []
        (render comma newline rest)
      have text : render comma newline (fields :: rest) =
          [comma].intercalate fields ++ newline :: render comma newline rest := by
        simp [render, row]
      rw [parse, text, Words.lines, line, List.nil_append, List.map_cons,
        List.splitOn_intercalate comma first.commas first.nonempty]
      exact congrArg (fields :: ·) (ih later)

end Tables
