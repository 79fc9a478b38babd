/-
# Layout of a file

The numbers of a file may be spread over its lines in any way, with comments among them and
before the header, and on each line with any blanks. The formula that is read depends on the
numbers alone.

The reader may stop before the last line, and where it does so depends on the layout. But
then the declared clauses are complete, and if the file holds no more than these, there is
nothing left but zeros that end no clause.
-/

import Clausal.Proofs.Dimacs.Limit
import Clausal.Proofs.Text.Layout

namespace Clausal.Dimacs

open Text

section numbers

variable {numbers further : List (List Char)} {word : List Char} {f : Formula}
  {variableCount : Nat}

/-- The last word is a zero that ends no clause, so the formula is written without it. -/
theorem WritesNumbers.of_append_singleton
    (written : WritesNumbers variableCount (numbers ++ [word]) f)
    (nothingMore : (closedSegments (numbers ++ [word])).length ≤ (closedSegments numbers).length) :
    WritesNumbers variableCount numbers f := by
  have zero : WritesInteger word 0 := written.closed word (by simp)
  obtain ⟨done, last, split⟩ := exists_segments_eq numbers
  have lastEmpty : last = [] := by
    rw [closedSegments_append_zero zero, closedSegments, split, List.dropLast_concat,
      List.filter_append, List.length_append] at nothingMore
    by_contra someLast
    have counted : ([last].filter fun segment => !segment.isEmpty).length = 1 := by simp [someLast]
    omega
  refine { bounded := ?_, closed := (last_eq_nil_iff split).mp lastEmpty, clauses := ?_ }
  · exact fun word present => written.bounded word (List.mem_append_left _ present)
  · have clauses := written.clauses
    rw [segments_append_zero zero, List.filter_append] at clauses
    simpa using clauses

/-- If no clause ends in the further words, the formula is written without them. -/
theorem WritesNumbers.of_append (written : WritesNumbers variableCount (numbers ++ further) f)
    (nothingMore : (closedSegments (numbers ++ further)).length ≤ (closedSegments numbers).length) :
    WritesNumbers variableCount numbers f := by
  induction further using List.reverseRecOn with
  | nil => simpa using written
  | append_singleton further word ih =>
      rw [← List.append_assoc] at written nothingMore
      have kept := (length_closedSegments_append numbers further).1
      have growing := (length_closedSegments_append_singleton (numbers ++ further) word).1
      exact ih (written.of_append_singleton (by omega)) (by omega)

/-- Numbers within bounds write a formula, if the last clause is ended. -/
theorem exists_writesNumbers (variablesFit : variableCount < 2 ^ 64)
    (bounded : ∀ word ∈ numbers, Bounded variableCount word)
    (closed : ∀ word ∈ numbers.getLast?, WritesInteger word 0) :
    ∃ f, WritesNumbers variableCount numbers f := by
  let header : Header := ⟨variableCount, 0, variablesFit⟩
  obtain ⟨final, added⟩ : ∃ final, Progress.empty.addTokens header numbers = .ok final :=
    (Progress.exists_addTokens_eq_ok_iff .empty).mpr bounded
  obtain ⟨done, last, split, clauses, pending⟩ := Progress.records_empty.addTokens added
  refine ⟨⟨final.closed.toList⟩, bounded, closed, ?_⟩
  obtain rfl := (last_eq_nil_iff split).mpr closed
  rw [List.nil_append] at split
  rw [split, List.filter_append]
  simpa using clauses

/-- A number is neither of the letters that other lines begin with. -/
theorem Bounded.not_letter (bounded : Bounded variableCount word) :
    word ≠ ['c'] ∧ word ≠ ['p'] := by
  obtain ⟨z, written, -⟩ := bounded
  have noDigits {letter : Char} {n : Nat} (noDigit : letter.isDigit = false) :
      ¬ WritesDigits [letter] n := fun digits => by simpa [noDigit] using digits.digits letter
  apply And.intro
  · rintro rfl
    cases written with
    | bare digits => exact noDigits (by decide) digits
  · rintro rfl
    cases written with
    | bare digits => exact noDigits (by decide) digits

end numbers

section rows

variable {variableCount clauseCount : Nat} {numbers : List (List Char)} {text : List Char}

/-- The words on a line are none, or a comment. -/
def CommentRow (row : List (List Char)) : Prop :=
  row.head? = none ∨ row.head? = some ['c']

/-- The words of the lines are the numbers in order, however they are spread, and comments. -/
inductive Spreads : List (List (List Char)) → List (List Char) → Prop
  | done : Spreads [] []
  | comment {row : List (List Char)} {rows : List (List (List Char))}
      {numbers : List (List Char)} (comment : CommentRow row) (others : Spreads rows numbers) :
      Spreads (row :: rows) numbers
  | numbers {row : List (List Char)} {rows : List (List (List Char))}
      {numbers : List (List Char)} (others : Spreads rows numbers) :
      Spreads (row :: rows) (row ++ numbers)

/-- The words of the lines are comments, then the header, then the numbers and comments. -/
inductive Arranges (variableCount clauseCount : Nat) (numbers : List (List Char)) :
    List (List (List Char)) → Prop
  | intro {before after : List (List (List Char))} {variableWord clauseWord : List Char}
      (comments : ∀ row ∈ before, CommentRow row)
      (writesVariables : WritesNatural variableWord variableCount)
      (writesClauses : WritesNatural clauseWord clauseCount) (spread : Spreads after numbers) :
      Arranges variableCount clauseCount numbers
        (before ++ [['p'], ['c', 'n', 'f'], variableWord, clauseWord] :: after)

/-- The text is a file of these numbers in one of its layouts. -/
def Layout (variableCount clauseCount : Nat) (numbers : List (List Char)) (text : List Char) :
    Prop :=
  ∃ lines rows, LaysOut text lines ∧ List.Forall₂ Spells lines rows ∧
    Arranges variableCount clauseCount numbers rows

/-- Whether a text is a layout can be told from the words on its lines. -/
theorem layout_iff :
    Layout variableCount clauseCount numbers text ↔
      Arranges variableCount clauseCount numbers ((linesOf '\n' text).map words) := by
  apply Iff.intro
  · rintro ⟨lines, rows, laysOut, spells, arranges⟩
    rwa [laysOut.words_eq, forall₂_spells_iff.mp spells]
  · intro arranges
    obtain ⟨lines, laysOut⟩ := exists_laysOut text
    rw [laysOut.words_eq] at arranges
    exact ⟨lines, _, laysOut, forall₂_spells_iff.mpr rfl, arranges⟩

end rows

section lines

variable {variableCount clauseCount : Nat} {numbers : List (List Char)}
  {rows : List (List (List Char))} {lines : List LineRead} {line : LineRead} {f : Formula}

/-- A line with nothing but numbers, and perhaps none of them. -/
theorem numberWords_of_bounded (bounded : ∀ word ∈ wordsOf line, Bounded variableCount word) :
    ¬ IsHeader line ∧ numberWords [line] = wordsOf line := by
  cases row : wordsOf line with
  | nil =>
      have comment : IsComment line := by simp [IsComment, row]
      exact ⟨comment.not_isHeader, numberWords_singleton_of_not comment.not_isNumbers⟩
  | cons first others =>
      have noLetter := (bounded first (by simp [row])).not_letter
      have numbers : IsNumbers line := by simp [IsNumbers, IsComment, IsHeader, row, noLetter]
      exact ⟨numbers.2, row ▸ numberWords_singleton numbers⟩

/-- Wherever the numbers stand, they are read in their order. -/
theorem numberWords_of_spreads (spreads : Spreads rows numbers)
    (bounded : ∀ word ∈ numbers, Bounded variableCount word) (same : lines.map wordsOf = rows) :
    numberWords lines = numbers ∧ ∀ line ∈ lines, ¬ IsHeader line := by
  induction spreads generalizing lines with
  | done =>
      obtain rfl := List.map_eq_nil_iff.mp same
      exact ⟨rfl, by simp⟩
  | comment comment _ ih =>
      obtain ⟨line, lines, rfl, rfl, sameRest⟩ := List.map_eq_cons_iff.mp same
      have isComment : IsComment line := comment
      obtain ⟨others, noHeader⟩ := ih bounded sameRest
      rw [← List.singleton_append, numberWords_append,
        numberWords_singleton_of_not isComment.not_isNumbers, List.nil_append]
      exact ⟨others, List.forall_mem_cons.mpr ⟨isComment.not_isHeader, noHeader⟩⟩
  | numbers _ ih =>
      obtain ⟨line, lines, rfl, rfl, sameRest⟩ := List.map_eq_cons_iff.mp same
      rw [List.forall_mem_append] at bounded
      obtain ⟨notHeader, here⟩ := numberWords_of_bounded bounded.1
      obtain ⟨others, noHeader⟩ := ih bounded.2 sameRest
      rw [← List.singleton_append, numberWords_append, here, others]
      exact ⟨rfl, List.forall_mem_cons.mpr ⟨notHeader, noHeader⟩⟩

theorem readPart_eq_or_stops (clauseCount : Nat) (lines : List LineRead) :
    readPart clauseCount lines = lines ∨ Stops clauseCount (readPart clauseCount lines) := by
  unfold readPart
  cases found : lines.inits.find? fun part => Stops clauseCount part with
  | none => exact Or.inl rfl
  | some part => exact Or.inr (by simpa using List.find?_some found)

/-- Wherever the reader stops, the lines until then write the formula of all the numbers. -/
theorem writesNumbers_readPart (written : WritesNumbers variableCount (numberWords lines) f)
    (few : (closedSegments (numberWords lines)).length ≤ clauseCount) :
    WritesNumbers variableCount (numberWords (readPart clauseCount lines)) f := by
  rcases readPart_eq_or_stops clauseCount lines with all | stops
  · rwa [all]
  · obtain ⟨tail, split⟩ := readPart_prefix clauseCount lines
    have nothingMore := Nat.le_trans few stops.2
    have numbers := numberWords_append (readPart clauseCount lines) tail
    rw [split] at numbers
    rw [numbers] at written nothingMore
    exact written.of_append nothingMore

/-- All lines with the words in such an arrangement write one formula. -/
theorem writes_of_arranges (arranges : Arranges variableCount clauseCount numbers rows)
    (same : lines.map wordsOf = rows) (readable : ∀ line ∈ lines, Readable line)
    (variablesFit : variableCount < 2 ^ 64) (clausesFit : clauseCount < 2 ^ 64)
    (written : WritesNumbers variableCount numbers f)
    (few : (closedSegments numbers).length ≤ clauseCount) : Writes lines f := by
  rcases arranges with ⟨comments, writesVariables, writesClauses, spread⟩
  obtain ⟨before, rest, rfl, rfl, restSame⟩ := List.map_eq_append_iff.mp same
  obtain ⟨header, after, rfl, headerWords, afterSame⟩ := List.map_eq_cons_iff.mp restSame
  have areComments : ∀ line ∈ before, IsComment line := fun line present =>
    comments (wordsOf line) (List.mem_map_of_mem present)
  have declares : Declares header variableCount clauseCount :=
    ⟨_, _, [], headerWords, writesVariables, variablesFit, writesClauses, clausesFit⟩
  obtain ⟨afterNumbers, noHeader⟩ := numberWords_of_spreads spread written.bounded afterSame
  have noNumbers : ∀ line ∈ before ++ [header], ¬ IsNumbers line := by
    rw [List.forall_mem_append, List.forall_mem_singleton]
    exact ⟨fun line present => (areComments line present).not_isNumbers,
      declares.isHeader.not_isNumbers⟩
  have allNumbers : numberWords (before ++ header :: after) = numbers := by
    rw [List.append_cons, numberWords_append, numberWords_of_no_numbers noNumbers, afterNumbers,
      List.nil_append]
  have beginning := readPart_prefix clauseCount (before ++ header :: after)
  have part : readPart clauseCount (before ++ header :: after) = _ :=
    readPart_append_header (fun line present => (areComments line present).not_isNumbers)
      declares.isHeader
  refine ⟨variableCount, clauseCount, ?_⟩
  refine { readable := ?_, declared := ?_, numbers := ?_ }
  · exact fun line present => readable line (beginning.subset present)
  · rw [part, List.prefix_append_right_inj, List.cons_prefix_cons] at beginning
    exact ⟨before, header, _, part, areComments, declares,
      fun line present => noHeader line (beginning.2.subset present)⟩
  · rw [← allNumbers] at written few
    exact writesNumbers_readPart written few

end lines

section layouts

variable {variableCount clauseCount : Nat} {numbers : List (List Char)}

/-- All layouts of one file are read, and the formula is always the same: the one that the
numbers write. The numbers are within bounds, no clause is left open, and no more clauses are
ended than declared. -/
theorem parse_eq_of_layout (variablesFit : variableCount < 2 ^ 64)
    (clausesFit : clauseCount < 2 ^ 64)
    (bounded : ∀ word ∈ numbers, Bounded variableCount word)
    (closed : ∀ word ∈ numbers.getLast?, WritesInteger word 0)
    (few : (closedSegments numbers).length ≤ clauseCount) :
    ∃ f, WritesNumbers variableCount numbers f ∧
      ∀ text, Layout variableCount clauseCount numbers text →
        parse ⟨encode text, none⟩ = .ok f := by
  obtain ⟨f, written⟩ := exists_writesNumbers variablesFit bounded closed
  refine ⟨f, written, fun text layout => ?_⟩
  have arranges := layout_iff.mp layout
  rw [parse, ByteStream.lines_encode, readLines_eq_ok_iff]
  refine writes_of_arranges arranges ?_ ?_ variablesFit clausesFit written few
  · rw [List.map_map]
    exact List.map_congr_left fun line _ => wordsOf_ofList line
  · exact List.forall_mem_map.mpr fun line _ => ⟨String.ofList line, rfl⟩

/-- The clauses on one line, and each over two lines with comments and blanks around. -/
theorem parse_eq_of_layout_two_layouts :
    let numbers : List (List Char) := [['1'], ['-', '2'], ['0'], ['2'], ['0']]
    let plain : List Char := "p cnf 2 2\n1 -2 0 2 0\n".toList
    let spread : List Char := "c p\r\n\u00a0p\tcnf 2  +2\n1\n\nc 3\n-2 0 2\r\n\u30000".toList
    (∀ word ∈ numbers, Bounded 2 word) ∧ (∀ word ∈ numbers.getLast?, WritesInteger word 0) ∧
      (closedSegments numbers).length ≤ 2 ∧ Layout 2 2 numbers plain ∧ Layout 2 2 numbers spread ∧
      ∃ f, parse ⟨encode plain, none⟩ = .ok f ∧ parse ⟨encode spread, none⟩ = .ok f := by
  intro numbers plain spread
  let header : Header := ⟨2, 2, by decide⟩
  have bounded : ∀ word ∈ numbers, Bounded 2 word :=
    (Progress.exists_addTokens_eq_ok_iff .empty).mp
      ⟨_, (rfl : Progress.empty.addTokens header numbers = .ok _)⟩
  have closed : ∀ word ∈ numbers.getLast?, WritesInteger word 0 := by decide +kernel
  have few : (closedSegments numbers).length ≤ 2 := by decide +kernel
  have two : WritesNatural ['2'] 2 := .bare (by decide)
  have plainLayout : Layout 2 2 numbers plain := by
    have rows : (linesOf '\n' plain).map words =
        [] ++ [['p'], ['c', 'n', 'f'], ['2'], ['2']] :: [numbers] := by decide +kernel
    rw [layout_iff, rows]
    exact .intro (by simp) two two (.numbers .done)
  have spreadLayout : Layout 2 2 numbers spread := by
    have rows : (linesOf '\n' spread).map words =
        [[['c'], ['p']]] ++ [['p'], ['c', 'n', 'f'], ['2'], ['+', '2']] ::
          [[['1']], [], [['c'], ['3']], [['-', '2'], ['0'], ['2']], [['0']]] := by decide +kernel
    rw [layout_iff, rows]
    refine .intro (by simp [CommentRow]) two (.plus (by decide)) ?_
    exact .numbers (.comment (.inl rfl) (.comment (.inr rfl) (.numbers (.numbers .done))))
  obtain ⟨f, -, same⟩ := parse_eq_of_layout (by decide) (by decide) bounded closed few
  exact ⟨bounded, closed, few, plainLayout, spreadLayout, f, same plain plainLayout,
    same spread spreadLayout⟩

end layouts

end Clausal.Dimacs
