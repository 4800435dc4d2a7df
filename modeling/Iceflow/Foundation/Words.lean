import Mathlib.Data.List.TakeWhile
import Mathlib.Data.Set.Card

/-! Lines and words of a sequence of characters, read one character at a time, and the
maximal runs without separators that the words are. -/
namespace Words
variable {α β : Type*}

section
variable (newline : α) [DecidableEq α]

/-- Reading lines until nothing is left: the last one may end without a newline. -/
def lines.go (line : List α) : List α → List (List α)
  | [] => if line.isEmpty then [] else [line]
  | c :: rest => if c = newline then line :: go [] rest else go (line ++ [c]) rest

def lines (text : List α) : List (List α) := lines.go newline [] text

end

variable (space : α → Bool)

/-- Reading words until none is left: separators before a word are skipped. -/
def words.go (word : List α) : List α → List (List α)
  | [] => if word.isEmpty then [] else [word]
  | c :: rest =>
    if space c then
      if word.isEmpty then go [] rest else word :: go [] rest
    else go (word ++ [c]) rest

def words (text : List α) : List (List α) := words.go space [] text

/-- A run without separators that nothing but separators surrounds. -/
structure MaximalRun (text : List α) (start : Nat) (run : List α) : Prop where
  nonempty : run ≠ []
  solid : ∀ c ∈ run, space c = false
  split : ∃ before after, text = before ++ (run ++ after) ∧ before.length = start ∧
    (∀ c ∈ before.getLast?, space c = true) ∧ ∀ c ∈ after.head?, space c = true

/-- How often a key occurs among the maximal runs of a text. -/
noncomputable def occurrences (key : List α → β) (text : List α) (k : β) : Nat :=
  {run : Nat × List α | MaximalRun space text run.1 run.2 ∧ key run.2 = k}.ncard

theorem words.go_append (word first : List α) {c : α} (separates : space c = true)
    (second : List α) :
    words.go space word (first ++ c :: second) =
      words.go space word first ++ words space second := by
  induction first generalizing word with
  | nil =>
    simp only [List.nil_append, words.go, if_pos separates, words]
    split <;> simp
  | cons d rest ih =>
    simp only [List.cons_append, words.go, ih]
    split <;> try split
    all_goals simp

theorem words_append_separator (first : List α) {c : α} (separates : space c = true)
    (second : List α) :
    words space (first ++ c :: second) = words space first ++ words space second :=
  words.go_append space [] first separates second

theorem words_of_lines [DecidableEq α] {newline : α} (separates : space newline = true)
    (text : List α) : (lines newline text).flatMap (words space) = words space text := by
  have loop (line rest : List α) :
      (lines.go newline line rest).flatMap (words space) = words space (line ++ rest) := by
    induction rest generalizing line with
    | nil =>
      simp only [lines.go]
      split
      · rename_i empty
        rw [List.isEmpty_iff.mp empty]
        rfl
      · simp
    | cons c rest ih =>
      simp only [lines.go]
      split
      · rename_i same
        subst same
        rw [List.flatMap_cons, ih, List.nil_append, words_append_separator space line separates]
      · rw [ih, List.append_assoc, List.singleton_append]
  exact loop [] text

/-- The maximal runs of a rest of a text from a position on. -/
def runsFrom (boundary : Bool) (start : Nat) : List α → List (Nat × List α)
  | [] => []
  | c :: rest =>
    if boundary && !space c then
      (start, (c :: rest).takeWhile (!space ·)) :: runsFrom (space c) (start + 1) rest
    else runsFrom (space c) (start + 1) rest

/-- Reading words yields the maximal runs, after the word that was begun. -/
theorem words.go_eq_runs (word rest : List α) (start : Nat) :
    words.go space word rest =
      if word.isEmpty then (runsFrom space true start rest).map Prod.snd
      else (word ++ rest.takeWhile (!space ·)) ::
        (runsFrom space false start rest).map Prod.snd := by
  induction rest generalizing word start with
  | nil => simp [words.go, runsFrom]
  | cons c rest ih =>
    cases separator : space c <;> cases word <;>
      simp [words.go, runsFrom, separator, ih _ (start + 1)]

theorem words_eq_runs (text : List α) :
    words space text = (runsFrom space true 0 text).map Prod.snd := by
  rw [words, words.go_eq_runs space [] text 0]
  rfl

/-- The run at the front of a text, if the text does not start with a separator. -/
theorem front_run (c : α) (rest run : List α) :
    (run ≠ [] ∧ (∀ c ∈ run, space c = false) ∧
      ∃ after, c :: rest = run ++ after ∧ ∀ d ∈ after.head?, space d = true) ↔
      space c = false ∧ run = (c :: rest).takeWhile (!space ·) := by
  constructor
  · rintro ⟨nonempty, solid, after, split, stops⟩
    have whole : (c :: rest).takeWhile (!space ·) = run := by
      rw [split, List.takeWhile_append_of_pos (fun d member => by simp [solid d member])]
      cases after with
      | nil => simp
      | cons d after =>
        rw [List.takeWhile_cons_of_neg (by simp [stops d rfl]), List.append_nil]
    cases run with
    | nil => contradiction
    | cons d run =>
      obtain ⟨rfl, _⟩ := List.cons_eq_cons.mp split
      exact ⟨solid c List.mem_cons_self, whole.symm⟩
  · rintro ⟨solid, rfl⟩
    refine ⟨by simp [solid], ?_, (c :: rest).dropWhile (!space ·), ?_, ?_⟩
    · intro d member
      simpa using List.mem_takeWhile_imp member
    · rw [List.takeWhile_append_dropWhile]
    · intro d first
      have stops := List.head?_dropWhile_not (!space ·) (c :: rest)
      rw [Option.mem_def.mp first] at stops
      simpa using stops

/-- What a run from a position on is, if `boundary` says whether a separator or
nothing comes before that position. -/
theorem mem_runsFrom {boundary : Bool} {start t : Nat} {text run : List α} :
    (t, run) ∈ runsFrom space boundary start text ↔
      run ≠ [] ∧ (∀ c ∈ run, space c = false) ∧
        ∃ before after, text = before ++ (run ++ after) ∧ start + before.length = t ∧
          before.getLast?.elim boundary space = true ∧ ∀ c ∈ after.head?, space c = true := by
  induction text generalizing boundary start with
  | nil =>
    simp only [runsFrom, List.not_mem_nil, false_iff]
    rintro ⟨nonempty, _, before, after, split, _⟩
    have parts := List.append_eq_nil_iff.mp split.symm
    exact nonempty (List.append_eq_nil_iff.mp parts.2).1
  | cons c rest ih =>
    have later : (t, run) ∈ runsFrom space (space c) (start + 1) rest ↔
        run ≠ [] ∧ (∀ c ∈ run, space c = false) ∧
          ∃ before after, c :: rest = (c :: before) ++ (run ++ after) ∧
            start + (c :: before).length = t ∧
            (c :: before).getLast?.elim boundary space = true ∧
            ∀ c ∈ after.head?, space c = true := by
      rw [ih]
      have last (before : List α) : (c :: before).getLast?.elim boundary space =
          before.getLast?.elim (space c) space := by
        rw [List.getLast?_cons]
        cases before.getLast? <;> rfl
      simp only [last, List.cons_append, List.cons.injEq, true_and, List.length_cons,
        Nat.add_assoc, Nat.add_comm 1]
    have here : (boundary && !space c) = true ∧
          (t, run) = (start, (c :: rest).takeWhile (!space ·)) ↔
        run ≠ [] ∧ (∀ c ∈ run, space c = false) ∧
          ∃ after, c :: rest = run ++ after ∧ start = t ∧ boundary = true ∧
            ∀ c ∈ after.head?, space c = true := by
      have front := front_run space c rest run
      simp only [Bool.and_eq_true, Bool.not_eq_true', Prod.mk.injEq]
      constructor
      · rintro ⟨⟨bounded, solid⟩, rfl, same⟩
        obtain ⟨nonempty, inside, after, split, stops⟩ := front.mpr ⟨solid, same⟩
        exact ⟨nonempty, inside, after, split, rfl, bounded, stops⟩
      · rintro ⟨nonempty, inside, after, split, rfl, bounded, stops⟩
        obtain ⟨solid, same⟩ := front.mp ⟨nonempty, inside, after, split, stops⟩
        exact ⟨⟨bounded, solid⟩, rfl, same⟩
    have cases : (t, run) ∈ runsFrom space boundary start (c :: rest) ↔
        ((boundary && !space c) = true ∧
          (t, run) = (start, (c :: rest).takeWhile (!space ·))) ∨
        (t, run) ∈ runsFrom space (space c) (start + 1) rest := by
      rw [runsFrom]
      split <;> simp_all
    rw [cases, here, later]
    constructor
    · rintro (⟨nonempty, solid, after, split, position, bounded, stops⟩ |
        ⟨nonempty, solid, before, after, split, position, bounded, stops⟩)
      · exact ⟨nonempty, solid, [], after, split, position, bounded, stops⟩
      · exact ⟨nonempty, solid, c :: before, after, split, position, bounded, stops⟩
    · rintro ⟨nonempty, solid, before, after, split, position, bounded, stops⟩
      cases before with
      | nil => exact Or.inl ⟨nonempty, solid, after, split, position, bounded, stops⟩
      | cons d before =>
        obtain ⟨rfl, _⟩ := List.cons_eq_cons.mp split
        exact Or.inr ⟨nonempty, solid, before, after, split, position, bounded, stops⟩

theorem maximalRun_iff {text run : List α} {start : Nat} :
    MaximalRun space text start run ↔ (start, run) ∈ runsFrom space true 0 text := by
  rw [mem_runsFrom]
  have ends (before : List α) : before.getLast?.elim true space = true ↔
      ∀ c ∈ before.getLast?, space c = true := by
    cases before.getLast? <;> simp
  simp only [ends, Nat.zero_add]
  constructor
  · rintro ⟨nonempty, solid, split⟩
    exact ⟨nonempty, solid, split⟩
  · rintro ⟨nonempty, solid, split⟩
    exact ⟨nonempty, solid, split⟩

theorem runsFrom_sorted (boundary : Bool) (start : Nat) (text : List α) :
    (∀ run ∈ runsFrom space boundary start text, start ≤ run.1) ∧
      (runsFrom space boundary start text).Pairwise (fun a b => a.1 < b.1) := by
  induction text generalizing boundary start with
  | nil => simp [runsFrom]
  | cons c rest ih =>
    obtain ⟨later, sorted⟩ := ih (space c) (start + 1)
    rw [runsFrom]
    split
    · constructor
      · intro run member
        rcases List.mem_cons.mp member with rfl | member
        · exact le_rfl
        · exact (Nat.le_succ start).trans (later run member)
      · exact List.pairwise_cons.mpr ⟨later, sorted⟩
    · exact ⟨fun run member => (Nat.le_succ start).trans (later run member), sorted⟩

theorem nodup_runsFrom (boundary : Bool) (start : Nat) (text : List α) :
    (runsFrom space boundary start text).Nodup :=
  (runsFrom_sorted space boundary start text).2.imp fun {a _} earlier same =>
    absurd (same ▸ earlier) (lt_irrefl a.1)

theorem count_words [BEq β] [LawfulBEq β] (key : List α → β) (text : List α) (k : β) :
    ((words space text).map key).count k = occurrences space key text k := by
  classical
  let runs := runsFrom space true 0 text
  have same : {run : Nat × List α | MaximalRun space text run.1 run.2 ∧ key run.2 = k} =
      ((runs.filter (fun run => key run.2 == k)).toFinset : Set (Nat × List α)) := by
    ext run
    simp [runs, maximalRun_iff]
  rw [occurrences, same, Set.ncard_coe_finset,
    List.toFinset_card_of_nodup ((nodup_runsFrom space true 0 text).filter _), words_eq_runs,
    List.map_map, List.count_eq_countP, List.countP_map, List.countP_eq_length_filter]
  rfl

/-- A word has no separators, so it is the only word in itself. -/
theorem words_word {text word : List α} (member : word ∈ words space text) :
    words space word = [word] := by
  rw [words_eq_runs] at member
  obtain ⟨⟨start, run⟩, listed, rfl⟩ := List.mem_map.mp member
  obtain ⟨nonempty, solid, _⟩ := (maximalRun_iff space).mpr listed
  have loop (read rest : List α) (solid : ∀ c ∈ rest, space c = false)
      (some : read ++ rest ≠ []) : words.go space read rest = [read ++ rest] := by
    induction rest generalizing read with
    | nil => simpa [words.go] using some
    | cons c rest ih =>
      have inside : space c = false := solid c List.mem_cons_self
      rw [words.go, inside, if_neg (by simp)]
      rw [ih (read ++ [c]) (fun d listed => solid d (List.mem_cons_of_mem _ listed)) (by simp),
        List.append_assoc, List.singleton_append]
  exact loop [] run solid nonempty

end Words
