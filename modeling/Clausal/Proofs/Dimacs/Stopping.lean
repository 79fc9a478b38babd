/-
# No line is looked at behind the one that stops the reader

There are two reasons to stop within a file: the declared clauses are complete at the end
of a line of numbers, or a line is a fault. Both are said here through the words on the
lines until then, so a file at which the reader stops is one at which it stops whatever
follows. Between two lines the stage of the reader is what the lines until then come to,
and as long as they come to a stage, neither reason is given.

The end of a file is not among the reasons. What is wrong with a file only because it
ends there may be mended by what follows.
-/

import Clausal.Proofs.Dimacs.Stage
import Clausal.Proofs.Text.Lines

namespace Clausal.Dimacs

open Text

section halts

/-- The line is a fault, wherever the lines before it have led. -/
inductive Faulty (before : List LineRead) (line : LineRead) : Prop
  | unreadable (noText : ¬ Readable line)
  | premature (numbers : IsNumbers line) (noHeader : ∀ other ∈ before, ¬ IsHeader other)
  | malformed (isHeader : IsHeader line)
      (declaresNothing : ∀ variableCount clauseCount, ¬ Declares line variableCount clauseCount)
  | duplicate (isHeader : IsHeader line) (earlier : ∃ other ∈ before, IsHeader other)
  | unbounded {header : LineRead} {variableCount clauseCount : Nat} {word : List Char}
      (numbers : IsNumbers line) (earlier : header ∈ before)
      (declares : Declares header variableCount clauseCount) (present : word ∈ wordsOf line)
      (outOfBounds : ¬ Bounded variableCount word)

/-- The reader stops within the lines. -/
inductive Halts (lines : List LineRead) : Prop
  | complete {clauseCount : Nat} {part : List LineRead} (opens : Opens clauseCount lines)
      (beginning : part <+: lines) (stops : Stops clauseCount part)
  | fault {before : List LineRead} {line : LineRead} {after : List LineRead}
      (split : lines = before ++ line :: after) (faulty : Faulty before line)

variable {clauseCount : Nat} {lines before : List LineRead} {line : LineRead}
  {word : List Char}

theorem Opens.append (opens : Opens clauseCount lines) (rest : List LineRead) :
    Opens clauseCount (lines ++ rest) := by
  rcases opens with ⟨before, header, after, variableCount, rfl, comments, declares⟩
  exact ⟨before, header, after ++ rest, variableCount, by simp, comments, declares⟩

/-- Further lines do not give the reader back what it has stopped at. -/
theorem Halts.append (halts : Halts lines) (rest : List LineRead) : Halts (lines ++ rest) := by
  cases halts with
  | complete opens beginning stops =>
      exact .complete (opens.append rest) (beginning.trans (List.prefix_append lines rest)) stops
  | @fault before line after split faulty =>
      have longer : lines ++ rest = before ++ line :: (after ++ rest) := by
        rw [split, List.append_assoc, List.cons_append]
      exact .fault longer faulty

theorem Faulty.halts (faulty : Faulty before line) : Halts (before ++ [line]) :=
  .fault rfl faulty

/-- A header that is refused declares nothing. -/
theorem not_declares_of_ofFields_eq_error {fields : List (List Char)} {cause : FormatError}
    (written : wordsOf line = ['p'] :: fields) (refused : Header.ofFields fields = .error cause)
    (variableCount clauseCount : Nat) : ¬ Declares line variableCount clauseCount := by
  intro declares
  rcases declares_iff.mp declares with ⟨others, declared, alsoWritten, accepted, -⟩
  have sameFields : fields = others := (List.cons.inj (written.symm.trans alsoWritten)).2
  rw [sameFields, accepted] at refused
  cases refused

/-- Where words are not taken in, one of them is out of bounds. -/
theorem exists_not_bounded_of_addTokens_eq_error {declared : Header} {progress : Progress}
    {tokens : List (List Char)} {cause : FormatError}
    (refused : progress.addTokens declared tokens = .error cause) :
    ∃ word ∈ tokens, ¬ Bounded declared.variableCount word := by
  by_contra allBounded
  push Not at allBounded
  rcases (Progress.exists_addTokens_eq_ok_iff progress).mpr allBounded with ⟨final, added⟩
  cases refused.symm.trans added

theorem exists_isNumbers_of_stops (stops : Stops clauseCount lines) :
    ∃ line ∈ lines, IsNumbers line := by
  rcases stops with ⟨⟨line, last, numbers⟩, -⟩
  exact ⟨line, List.mem_of_getLast? last, numbers⟩

theorem mem_numberWords (present : line ∈ lines) (numbers : IsNumbers line)
    (inLine : word ∈ wordsOf line) : word ∈ numberWords lines := by
  rw [numberWords, List.mem_flatMap]
  exact ⟨line, List.mem_filter.mpr ⟨present, decide_eq_true numbers⟩, inLine⟩

/-- No beginning of the lines completes the declared clauses. -/
def GoesOn (clauseCount : Nat) (lines : List LineRead) : Prop :=
  ∀ part, part <+: lines → ¬ Stops clauseCount part

theorem goesOn_of_no_numbers (noNumbers : ∀ line ∈ lines, ¬ IsNumbers line) :
    GoesOn clauseCount lines := by
  intro part beginning stops
  rcases exists_isNumbers_of_stops stops with ⟨line, present, numbers⟩
  exact noNumbers line (beginning.subset present) numbers

theorem GoesOn.append_singleton (goesOn : GoesOn clauseCount lines)
    (alsoHere : ¬ Stops clauseCount (lines ++ [line])) : GoesOn clauseCount (lines ++ [line]) := by
  intro part beginning
  rcases List.prefix_concat_iff.mp beginning with rfl | shorter
  · exact alsoHere
  · exact goesOn part shorter

end halts

namespace Stage

variable {stage : Stage} {consumed lines : List LineRead} {line : LineRead}
  {header : Header} {progress : Progress}

/-- The lines have led behind the header, and this much of them has been taken in. -/
structure Underway (lines : List LineRead) (header : Header) (progress : Progress) : Prop where
  opened : ∃ before line after, lines = before ++ line :: after ∧
    (∀ other ∈ before, Readable other ∧ IsComment other) ∧
    Declares line header.variableCount header.clauseCount ∧
    ∀ other ∈ after, Readable other ∧ ¬ IsHeader other
  taken : Progress.empty.addTokens header (numberWords lines) = .ok progress
  goesOn : GoesOn header.clauseCount lines

/-- The lines have led to the stage. -/
def Reached (lines : List LineRead) : Stage → Prop
  | opening => ∀ line ∈ lines, Readable line ∧ IsComment line
  | reading header progress => Underway lines header progress

theorem Underway.append_singleton (underway : Underway consumed header progress)
    {more : Progress} (readable : Readable line) (notHeader : ¬ IsHeader line)
    (taken : Progress.empty.addTokens header (numberWords (consumed ++ [line])) = .ok more)
    (goesOn : ¬ Stops header.clauseCount (consumed ++ [line])) :
    Underway (consumed ++ [line]) header more := by
  refine { opened := ?_, taken, goesOn := underway.goesOn.append_singleton goesOn }
  rcases underway.opened with ⟨before, first, after, split, comments, declares, faultless⟩
  refine ⟨before, first, after ++ [line], by simp [split], comments, declares, ?_⟩
  rw [List.forall_mem_append, List.forall_mem_singleton]
  exact ⟨faultless, readable, notHeader⟩

theorem Underway.opens (underway : Underway lines header progress) :
    Opens header.clauseCount lines := by
  rcases underway.opened with ⟨before, line, after, split, comments, declares, -⟩
  exact ⟨before, line, after, _, split, fun other present => (comments other present).2, declares⟩

/-- One line before the header leads on, or it is a fault. -/
theorem opening_next (comments : ∀ other ∈ consumed, Readable other ∧ IsComment other)
    (line : LineRead) :
    (∃ later, opening.next line = .ok later ∧ later.Reached (consumed ++ [line])) ∨
      (∃ answer, opening.next line = .error answer) ∧ Halts (consumed ++ [line]) := by
  cases line with
  | error cause =>
      exact Or.inr ⟨⟨_, rfl⟩, (Faulty.unreadable (by simp [Readable])).halts⟩
  | ok text =>
      rw [next]
      cases kind : Line.ofText text.toList with
      | comment =>
          refine Or.inl ⟨opening, rfl, ?_⟩
          rw [Reached, List.forall_mem_append, List.forall_mem_singleton]
          exact ⟨comments, ⟨text, rfl⟩, ofText_eq_comment_iff.mp kind⟩
      | numbers tokens =>
          have premature : Faulty consumed (.ok text) :=
            .premature (ofText_eq_numbers_iff.mp kind).1
              fun other present => (comments other present).2.not_isHeader
          exact Or.inr ⟨⟨_, rfl⟩, premature.halts⟩
      | header fields =>
          have written := ofText_eq_header_iff.mp kind
          have isHeader : IsHeader (.ok text) := isHeader_iff.mpr ⟨fields, written⟩
          dsimp only
          cases accepted : Header.ofFields fields with
          | error cause =>
              have malformed : Faulty consumed (.ok text) :=
                .malformed isHeader (not_declares_of_ofFields_eq_error written accepted)
              exact Or.inr ⟨⟨_, rfl⟩, malformed.halts⟩
          | ok declared =>
              have noNumbers : ∀ other ∈ consumed ++ [.ok text], ¬ IsNumbers other := by
                rw [List.forall_mem_append, List.forall_mem_singleton]
                exact ⟨fun other present => (comments other present).2.not_isNumbers,
                  isHeader.not_isNumbers⟩
              refine Or.inl ⟨reading declared .empty, rfl, ?_⟩
              refine { opened := ?_, taken := ?_, goesOn := goesOn_of_no_numbers noNumbers }
              · exact ⟨consumed, .ok text, [], rfl, comments,
                  declares_iff.mpr ⟨fields, declared, written, accepted, rfl, rfl⟩, by simp⟩
              · rw [numberWords_of_no_numbers noNumbers]
                rfl

/-- One line behind the header leads on, or the clauses are complete, or it is a fault. -/
theorem reading_next (underway : Underway consumed header progress) (line : LineRead) :
    (∃ later, (reading header progress).next line = .ok later ∧
        later.Reached (consumed ++ [line])) ∨
      (∃ answer, (reading header progress).next line = .error answer) ∧
        Halts (consumed ++ [line]) := by
  obtain ⟨before, first, after, split, -, declares, -⟩ := underway.opened
  have earlier : first ∈ consumed := by simp [split]
  cases line with
  | error cause =>
      exact Or.inr ⟨⟨_, rfl⟩, (Faulty.unreadable (by simp [Readable])).halts⟩
  | ok text =>
      have readable : Readable (.ok text) := ⟨text, rfl⟩
      have taken := addTokens_numberWords_append underway.taken [.ok text]
      rw [next]
      cases kind : Line.ofText text.toList with
      | comment =>
          have comment := ofText_eq_comment_iff.mp kind
          rw [numberWords_singleton_of_not comment.not_isNumbers] at taken
          exact Or.inl ⟨reading header progress, rfl, underway.append_singleton readable
            comment.not_isHeader taken (not_stops_append comment.not_isNumbers)⟩
      | header fields =>
          have isHeader : IsHeader (.ok text) :=
            isHeader_iff.mpr ⟨fields, ofText_eq_header_iff.mp kind⟩
          have duplicate : Faulty consumed (.ok text) :=
            .duplicate isHeader ⟨first, earlier, declares.isHeader⟩
          exact Or.inr ⟨⟨_, rfl⟩, duplicate.halts⟩
      | numbers tokens =>
          obtain ⟨numbers, rfl⟩ := ofText_eq_numbers_iff.mp kind
          rw [numberWords_singleton numbers] at taken
          dsimp only
          cases added : progress.addTokens header (wordsOf (.ok text)) with
          | error cause =>
              obtain ⟨word, present, outOfBounds⟩ := exists_not_bounded_of_addTokens_eq_error added
              have unbounded : Faulty consumed (.ok text) :=
                .unbounded numbers earlier declares present outOfBounds
              exact Or.inr ⟨⟨_, rfl⟩, unbounded.halts⟩
          | ok more =>
              rw [added] at taken
              have stopsIff := stops_append_iff numbers taken
              by_cases complete : header.clauseCount ≤ more.closed.size
              · exact Or.inr ⟨⟨_, if_pos complete⟩, .complete (underway.opens.append _)
                  (List.prefix_refl _) (stopsIff.mpr complete)⟩
              · exact Or.inl ⟨reading header more, if_neg complete,
                  underway.append_singleton readable numbers.2 taken (mt stopsIff.mp complete)⟩

/-- One line leads to another stage, or the reader stops and has reason to. -/
theorem next_cases (reached : stage.Reached consumed) (line : LineRead) :
    (∃ later, stage.next line = .ok later ∧ later.Reached (consumed ++ [line])) ∨
      (∃ answer, stage.next line = .error answer) ∧ Halts (consumed ++ [line]) := by
  cases stage with
  | opening => exact opening_next reached line
  | reading header progress => exact reading_next reached line

/-- All lines lead to a stage, or the reader stops within them and has reason to. -/
theorem run_cases (reached : stage.Reached consumed) (lines : List LineRead) :
    (∃ later, stage.run lines = .ok later ∧ later.Reached (consumed ++ lines)) ∨
      (∃ answer, stage.run lines = .error answer) ∧ Halts (consumed ++ lines) := by
  induction lines generalizing stage consumed with
  | nil => exact Or.inl ⟨stage, rfl, by simpa using reached⟩
  | cons line lines ih =>
      rw [run, List.foldlM_cons, List.append_cons]
      rcases next_cases reached line with ⟨later, goes, leads⟩ | ⟨⟨answer, stops⟩, halts⟩
      · rw [goes]
        exact ih leads
      · rw [stops]
        exact Or.inr ⟨⟨answer, rfl⟩, halts.append lines⟩

/-- Where only comments have been read, there is no reason to stop. -/
theorem not_halts_of_comments (comments : ∀ other ∈ lines, Readable other ∧ IsComment other) :
    ¬ Halts lines := by
  intro halts
  cases halts with
  | complete opens beginning stops =>
      rcases exists_isNumbers_of_stops stops with ⟨line, present, numbers⟩
      exact (comments line (beginning.subset present)).2.not_isNumbers numbers
  | @fault before line after split faulty =>
      have here := comments line (by simp [split])
      cases faulty with
      | unreadable noText => exact noText here.1
      | premature numbers => exact here.2.not_isNumbers numbers
      | malformed isHeader => exact here.2.not_isHeader isHeader
      | duplicate isHeader => exact here.2.not_isHeader isHeader
      | unbounded numbers => exact here.2.not_isNumbers numbers

theorem Underway.readable (underway : Underway lines header progress) :
    ∀ other ∈ lines, Readable other := by
  rcases underway.opened with ⟨before, first, after, rfl, comments, declares, faultless⟩
  rcases declares_iff.mp declares with ⟨fields, -, written, -⟩
  rw [List.forall_mem_append, List.forall_mem_cons]
  exact ⟨fun other present => (comments other present).1, readable_of_wordsOf_eq_cons written,
    fun other present => (faultless other present).1⟩

/-- All the headers among the lines are the one that opens the file. -/
theorem Underway.declares_of_isHeader (underway : Underway lines header progress)
    (present : line ∈ lines) (isHeader : IsHeader line) :
    Declares line header.variableCount header.clauseCount := by
  rcases underway.opened with ⟨before, first, after, rfl, comments, declares, faultless⟩
  rcases List.mem_append.mp present with inComments | here
  · exact False.elim ((comments line inComments).2.not_isHeader isHeader)
  · rcases List.mem_cons.mp here with rfl | behind
    · exact declares
    · exact False.elim ((faultless line behind).2 isHeader)

/-- Behind the header there is no reason to stop before the clauses are complete. -/
theorem Underway.not_halts (underway : Underway lines header progress) : ¬ Halts lines := by
  intro halts
  cases halts with
  | complete opens beginning stops =>
      have same := opens.unique underway.opens
      exact underway.goesOn _ beginning (same ▸ stops)
  | @fault before line after split faulty =>
      have present : line ∈ lines := by simp [split]
      obtain ⟨first, headerLine, last, place, comments, declares, faultless⟩ := underway.opened
      -- The line at fault and the header are in one place, or one of them comes first.
      have trichotomy := split_trichotomy (split.symm.trans place)
      cases faulty with
      | unreadable noText => exact noText (underway.readable line present)
      | premature numbers noHeader =>
          rcases trichotomy with ⟨-, rfl⟩ | ⟨inComments, -⟩ | ⟨earlier, -⟩
          · exact declares.isHeader.not_isNumbers numbers
          · exact (comments line inComments).2.not_isNumbers numbers
          · exact noHeader headerLine earlier declares.isHeader
      | malformed isHeader declaresNothing =>
          exact declaresNothing _ _ (underway.declares_of_isHeader present isHeader)
      | duplicate isHeader earlier =>
          obtain ⟨other, earlier, otherIsHeader⟩ := earlier
          rcases trichotomy with ⟨rfl, -⟩ | ⟨inComments, -⟩ | ⟨-, behind⟩
          · exact (comments other earlier).2.not_isHeader otherIsHeader
          · exact (comments line inComments).2.not_isHeader isHeader
          · exact (faultless line behind).2 isHeader
      | @unbounded other variableCount clauseCount word numbers earlier otherDeclares inLine
          outOfBounds =>
          have inLines : other ∈ lines := by simp [split, earlier]
          have same := (otherDeclares.unique
            (underway.declares_of_isHeader inLines otherDeclares.isHeader)).1
          have bounded := (Progress.exists_addTokens_eq_ok_iff .empty).mp ⟨_, underway.taken⟩
          exact outOfBounds (same ▸ bounded word (mem_numberWords present numbers inLine))

theorem Reached.not_halts (reached : stage.Reached lines) : ¬ Halts lines := by
  cases stage with
  | opening => exact not_halts_of_comments reached
  | reading header progress => exact Underway.not_halts reached

/-- The reader stops within the lines exactly if there is a reason to. -/
theorem exists_run_opening_eq_error_iff :
    (∃ answer, opening.run lines = .error answer) ↔ Halts lines := by
  have start : opening.Reached [] := by simp [Reached]
  rcases run_cases start lines with ⟨later, goes, leads⟩ | ⟨stops, halts⟩
  · exact iff_of_false (by simp [goes]) leads.not_halts
  · exact iff_of_true stops halts

end Stage

section lines

variable {lines : List LineRead} {cause : ReadError}

instance : DecidablePred Halts := fun lines =>
  match run : Stage.opening.run lines with
  | .error answer => .isTrue (Stage.exists_run_opening_eq_error_iff.mp ⟨answer, run⟩)
  | .ok _ => .isFalse fun halts => by
      obtain ⟨answer, stops⟩ := Stage.exists_run_opening_eq_error_iff.mpr halts
      cases run.symm.trans stops

/-- Behind the line that stops the reader, nothing changes its answer. -/
theorem readLines_append_of_halts (halts : Halts lines) (rest : List LineRead) :
    readLines (lines ++ rest) = readLines lines := by
  obtain ⟨answer, stops⟩ := Stage.exists_run_opening_eq_error_iff.mpr halts
  have settled (rest : List LineRead) : readLines (lines ++ rest) = answer := by
    have cut := Stage.answer_append .opening lines rest
    rw [stops] at cut
    exact cut
  have alone := settled []
  rw [List.append_nil] at alone
  rw [settled, alone]

/-- A reader that has not stopped comes to the failure. -/
theorem readLines_append_error_of_not_halts (goesOn : ¬ Halts lines) :
    readLines (lines ++ [.error cause]) = .error (.read cause) := by
  have cut := Stage.answer_append .opening lines [.error cause]
  cases run : Stage.opening.run lines with
  | error answer =>
      exact False.elim (goesOn (Stage.exists_run_opening_eq_error_iff.mp ⟨answer, run⟩))
  | ok later =>
      rw [run] at cut
      cases later with
      | opening => exact cut
      | reading header progress => exact cut

end lines

section streams

/-- When the reader stops within whole lines, what follows them makes no difference, be it
malformed, no text or a failure. So a stream that fails after some bytes gives the answer of the
whole stream if the reader stops within the lines that are whole by then. Otherwise it gives the
failure itself, and a line that is cut short is not taken for anything. -/
theorem parse_settled_by_whole_lines :
    (∀ (first : List UInt8) (rest : ByteStream), EndsLine ByteStream.newline first →
      Halts (ByteStream.lines ⟨first, none⟩) →
        parse ⟨first ++ rest.bytes, rest.failure⟩ = parse ⟨first, none⟩) ∧
    ∀ (s : ByteStream) (count : Nat) (cause : ReadError),
      let whole : List LineRead :=
        (completeLinesOf ByteStream.newline (s.bytes.take count)).map decode
      (Halts whole → parse (s.failAfter count cause) = parse s) ∧
        (¬ Halts whole → parse (s.failAfter count cause) = .error (.read cause)) := by
  apply And.intro
  · intro first rest ends halts
    rw [ByteStream.lines_of_endsLine ends] at halts
    rw [parse, parse, ByteStream.lines_append ends, ByteStream.lines_of_endsLine ends]
    exact readLines_append_of_halts halts rest.lines
  · intro s count cause whole
    have failing : (s.failAfter count cause).lines = whole ++ [.error cause] := rfl
    apply And.intro
    · intro halts
      obtain ⟨others, unbroken⟩ := s.whole_lines_prefix count
      rw [parse, parse, failing, ← unbroken, readLines_append_of_halts halts,
        readLines_append_of_halts halts]
    · intro goesOn
      rw [parse, failing]
      exact readLines_append_error_of_not_halts goesOn

/-- The declared clause is complete, so a byte that is no text does no harm behind it, nor does
a failure. Cut off just before its newline, the same clause is lost. -/
theorem parse_settled_by_whole_lines_one_clause :
    let first : List UInt8 := "p cnf 2 1\n1 -2 0\n".toUTF8.toList
    let s : ByteStream := ⟨first ++ [0xFF], none⟩
    let whole (count : Nat) : List LineRead :=
      (completeLinesOf ByteStream.newline (s.bytes.take count)).map decode
    EndsLine ByteStream.newline first ∧ Halts (ByteStream.lines ⟨first, none⟩) ∧
      Halts (whole 17) ∧ ¬ Halts (whole 16) ∧
      parse s = parse ⟨first, none⟩ ∧ parse (s.failAfter 17 .isDirectory) = parse s ∧
      parse (s.failAfter 16 .isDirectory) = .error (.read .isDirectory) := by
  intro first s whole
  have ends : EndsLine ByteStream.newline first := by decide +kernel
  have halts : Halts (ByteStream.lines ⟨first, none⟩) := by decide +kernel
  have wholeClause : Halts (whole 17) := by decide +kernel
  have lostClause : ¬ Halts (whole 16) := by decide +kernel
  exact ⟨ends, halts, wholeClause, lostClause,
    parse_settled_by_whole_lines.1 first ⟨[0xFF], none⟩ ends halts,
    (parse_settled_by_whole_lines.2 s 17 .isDirectory).1 wholeClause,
    (parse_settled_by_whole_lines.2 s 16 .isDirectory).2 lostClause⟩

end streams

end Clausal.Dimacs
