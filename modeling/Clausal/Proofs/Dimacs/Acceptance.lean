/-
# Which files are read

A file is read if and only if the lines that count write a formula, and this formula is
the result. The reader stops by itself where the lines that count end: after every line
of numbers it has recorded as many clauses as the words until then close. So the lines
that it goes on to read are followed along its recursion, with the lines already read
at hand.
-/

import Clausal.Proofs.Dimacs.Progress

namespace Clausal.Dimacs

open Text

section lines

variable {clauseCount : Nat} {before consumed rest : List LineRead} {line : LineRead}

theorem IsHeader.not_isNumbers (header : IsHeader line) : ¬ IsNumbers line := by
  intro numbers
  exact numbers.2 header

theorem IsComment.not_isHeader (comment : IsComment line) : ¬ IsHeader line := by
  intro header
  rcases comment with none | letter
  · exact Option.some_ne_none _ (header.symm.trans none)
  · cases header.symm.trans letter

theorem IsComment.not_isNumbers (comment : IsComment line) : ¬ IsNumbers line := by
  intro numbers
  exact numbers.1 comment

theorem numberWords_append (first second : List LineRead) :
    numberWords (first ++ second) = numberWords first ++ numberWords second := by
  simp [numberWords]

theorem numberWords_singleton (numbers : IsNumbers line) : numberWords [line] = wordsOf line := by
  simp [numberWords, numbers]

theorem numberWords_of_no_numbers {lines : List LineRead}
    (noNumbers : ∀ line ∈ lines, ¬ IsNumbers line) : numberWords lines = [] := by
  rw [numberWords, List.filter_eq_nil_iff.mpr (by simpa using noNumbers), List.flatMap_nil]

theorem numberWords_singleton_of_not (notNumbers : ¬ IsNumbers line) : numberWords [line] = [] :=
  numberWords_of_no_numbers (by simpa using notNumbers)

theorem not_stops_nil : ¬ Stops clauseCount [] := by
  rintro ⟨⟨line, last, -⟩, -⟩
  cases last

/-- Reading stops after lines of numbers only. -/
theorem not_stops_append (notNumbers : ¬ IsNumbers line) :
    ¬ Stops clauseCount (consumed ++ [line]) := by
  rintro ⟨⟨last, isLast, numbers⟩, -⟩
  rw [List.getLast?_concat, Option.mem_some] at isLast
  exact notNumbers (isLast ▸ numbers)

/-- The lines that are still read after the consumed ones. -/
def linesRead (clauseCount : Nat) (consumed : List LineRead) : List LineRead → List LineRead
  | [] => []
  | line :: rest =>
      line :: if Stops clauseCount (consumed ++ [line]) then []
        else linesRead clauseCount (consumed ++ [line]) rest

theorem linesRead_cons_of_stops (stops : Stops clauseCount (consumed ++ [line])) :
    linesRead clauseCount consumed (line :: rest) = [line] := by
  rw [linesRead, if_pos stops]

theorem linesRead_cons_of_not_stops (goesOn : ¬ Stops clauseCount (consumed ++ [line])) :
    linesRead clauseCount consumed (line :: rest) =
      line :: linesRead clauseCount (consumed ++ [line]) rest := by
  rw [linesRead, if_neg goesOn]

/-- Lines without numbers are read to their end. -/
theorem linesRead_append_of_no_numbers (noNumbers : ∀ line ∈ before, ¬ IsNumbers line) :
    linesRead clauseCount consumed (before ++ rest) =
      before ++ linesRead clauseCount (consumed ++ before) rest := by
  induction before generalizing consumed with
  | nil => simp
  | cons line before ih =>
      rw [List.forall_mem_cons] at noNumbers
      rw [List.cons_append, linesRead_cons_of_not_stops (not_stops_append noNumbers.1),
        ih noNumbers.2, List.append_assoc, List.singleton_append, List.cons_append]

/-- The first beginning of the file at which reading stops is found line by line. -/
theorem consumed_append_linesRead (goesOn : ¬ Stops clauseCount consumed)
    (rest : List LineRead) :
    ((rest.inits.map (consumed ++ ·)).find? fun part => Stops clauseCount part).getD
      (consumed ++ rest) = consumed ++ linesRead clauseCount consumed rest := by
  induction rest generalizing consumed with
  | nil => simp [linesRead, goesOn]
  | cons line rest ih =>
      rw [List.inits_cons, List.map_cons, List.append_nil,
        List.find?_cons_of_neg (by simpa using goesOn), List.map_map]
      have shifted : (consumed ++ ·) ∘ (fun part => line :: part) =
          ((consumed ++ [line]) ++ ·) := by
        funext part
        simp
      rw [shifted]
      by_cases stops : Stops clauseCount (consumed ++ [line])
      · rw [linesRead_cons_of_stops stops]
        cases rest <;> simp [stops]
      · rw [linesRead_cons_of_not_stops stops]
        simpa using ih stops

theorem readPart_eq_linesRead (clauseCount : Nat) (lines : List LineRead) :
    readPart clauseCount lines = linesRead clauseCount [] lines := by
  have followed := consumed_append_linesRead (not_stops_nil : ¬ Stops clauseCount []) lines
  simpa [readPart] using followed

/-- Whatever the number of clauses, the lines that count are a beginning of the file. -/
theorem readPart_prefix (clauseCount : Nat) (lines : List LineRead) :
    readPart clauseCount lines <+: lines := by
  unfold readPart
  cases found : lines.inits.find? fun part => Stops clauseCount part with
  | none => exact List.prefix_refl lines
  | some part => exact (List.mem_inits part lines).mp (List.mem_of_find?_eq_some found)

end lines

section clauses

variable {header : Header} {progress final : Progress} {consumed lines rest : List LineRead}
  {line : LineRead}

/-- The lines after the consumed ones are no faults, and with all the words on them the
reader ends as given. -/
def TakesIn (header : Header) (consumed lines : List LineRead) (final : Progress) : Prop :=
  (∀ line ∈ lines, Readable line ∧ ¬ IsHeader line) ∧
    Progress.empty.addTokens header (numberWords (consumed ++ lines)) = .ok final

theorem takesIn_nil_iff :
    TakesIn header consumed [] final ↔
      Progress.empty.addTokens header (numberWords consumed) = .ok final := by
  simp [TakesIn]

theorem takesIn_cons_iff :
    TakesIn header consumed (line :: lines) final ↔
      (Readable line ∧ ¬ IsHeader line) ∧
        TakesIn header (consumed ++ [line]) lines final := by
  rw [TakesIn, TakesIn, List.forall_mem_cons, and_assoc, List.append_cons]

/-- The words on one line more are taken in after those before it. -/
theorem addTokens_numberWords_append
    (taken : Progress.empty.addTokens header (numberWords consumed) = .ok progress)
    (lines : List LineRead) :
    Progress.empty.addTokens header (numberWords (consumed ++ lines)) =
      progress.addTokens header (numberWords lines) := by
  rw [numberWords_append, Progress.addTokens_append, taken]
  rfl

/-- The reader stops after a line of numbers when the lines until then do. -/
theorem stops_append_iff (numbers : IsNumbers line)
    (taken : Progress.empty.addTokens header (numberWords (consumed ++ [line])) = .ok progress) :
    Stops header.clauseCount (consumed ++ [line]) ↔
      header.clauseCount ≤ progress.closed.size := by
  have records := Progress.records_empty.addTokens taken
  rw [Stops, records.size_closed, List.nil_append, List.getLast?_concat]
  apply and_iff_right
  exact ⟨line, rfl, numbers⟩

theorem takesIn_linesRead_of_not_stops (readable : Readable line)
    (notHeader : ¬ IsHeader line) (goesOn : ¬ Stops header.clauseCount (consumed ++ [line])) :
    TakesIn header consumed (linesRead header.clauseCount consumed (line :: rest)) final ↔
      TakesIn header (consumed ++ [line])
        (linesRead header.clauseCount (consumed ++ [line]) rest) final := by
  rw [linesRead_cons_of_not_stops goesOn, takesIn_cons_iff, and_iff_right ⟨readable, notHeader⟩]

theorem takesIn_linesRead_of_stops (readable : Readable line)
    (notHeader : ¬ IsHeader line) (stops : Stops header.clauseCount (consumed ++ [line])) :
    TakesIn header consumed (linesRead header.clauseCount consumed (line :: rest)) final ↔
      Progress.empty.addTokens header (numberWords (consumed ++ [line])) = .ok final := by
  rw [linesRead_cons_of_stops stops, takesIn_cons_iff, and_iff_right ⟨readable, notHeader⟩,
    takesIn_nil_iff]

/-- Clauses are read when no line that is still read is a fault, and all its words are
taken in. -/
theorem readClauses_eq_ok_iff
    (taken : Progress.empty.addTokens header (numberWords consumed) = .ok progress) :
    readClauses header progress rest = .ok final ↔
      TakesIn header consumed (linesRead header.clauseCount consumed rest) final := by
  induction rest generalizing consumed progress with
  | nil => rw [readClauses, linesRead, takesIn_nil_iff, taken, Except.ok.injEq, Except.ok.injEq]
  | cons line rest ih =>
      cases line with
      | error cause =>
          rw [linesRead, takesIn_cons_iff]
          exact iff_of_false (by simp [readClauses]) (by simp [Readable])
      | ok text =>
          have readable : Readable (.ok text) := ⟨text, rfl⟩
          have next := addTokens_numberWords_append taken [.ok text]
          rw [readClauses]
          cases kind : Line.ofText text.toList with
          | comment =>
              have comment := ofText_eq_comment_iff.mp kind
              rw [numberWords_singleton_of_not comment.not_isNumbers] at next
              rw [takesIn_linesRead_of_not_stops readable comment.not_isHeader
                (not_stops_append comment.not_isNumbers)]
              exact ih next
          | header fields =>
              have header := isHeader_iff.mpr ⟨fields, ofText_eq_header_iff.mp kind⟩
              rw [linesRead, takesIn_cons_iff]
              exact iff_of_false (by simp) (by simp [header])
          | numbers tokens =>
              obtain ⟨numbers, rfl⟩ := ofText_eq_numbers_iff.mp kind
              -- A faulty word on the line at which reading stops is still an error: all its words
              -- are taken in before the clauses are counted.
              rw [numberWords_singleton numbers] at next
              dsimp only
              cases added : progress.addTokens header (wordsOf (.ok text)) with
              | error cause =>
                  rw [linesRead, takesIn_cons_iff, TakesIn, numberWords_append,
                    Progress.addTokens_append, next, added]
                  exact iff_of_false (by simp) (by simp [Except.bind])
              | ok more =>
                  rw [added] at next
                  dsimp only
                  by_cases stops : header.clauseCount ≤ more.closed.size
                  · rw [if_pos stops, takesIn_linesRead_of_stops readable numbers.2
                      ((stops_append_iff numbers next).mpr stops), next,
                      Except.ok.injEq, Except.ok.injEq]
                  · rw [if_neg stops, takesIn_linesRead_of_not_stops readable numbers.2
                      (mt (stops_append_iff numbers next).mp stops)]
                    exact ih next

end clauses

section file

variable {header : Header} {before lines rest : List LineRead} {line : LineRead}
  {fields : List (List Char)} {f : Formula}

/-- Only a text has words. -/
theorem readable_of_wordsOf_eq_cons {first : List Char} {others : List (List Char)}
    (written : wordsOf line = first :: others) : Readable line := by
  cases line with
  | error cause => cases written
  | ok text => exact ⟨text, rfl⟩

/-- Comments before the header are skipped. -/
theorem readHeader_append
    (comments : ∀ line ∈ before, Readable line ∧ IsComment line) :
    readHeader (before ++ rest) = readHeader rest := by
  induction before with
  | nil => rfl
  | cons line before ih =>
      rw [List.forall_mem_cons] at comments
      obtain ⟨⟨⟨text, rfl⟩, comment⟩, others⟩ := comments
      rw [List.cons_append, readHeader, ofText_eq_comment_iff.mpr comment]
      exact ih others

theorem readHeader_cons_of_header (written : wordsOf line = ['p'] :: fields)
    (accepted : Header.ofFields fields = .ok header) :
    readHeader (line :: rest) = .ok (header, rest) := by
  obtain ⟨text, rfl⟩ := readable_of_wordsOf_eq_cons written
  rw [readHeader, ofText_eq_header_iff.mpr written]
  dsimp only
  rw [accepted]

/-- A header that is found is the first line that is no comment. -/
theorem exists_header_of_readHeader_eq_ok (found : readHeader lines = .ok (header, rest)) :
    ∃ before line fields, lines = before ++ line :: rest ∧
      (∀ line ∈ before, Readable line ∧ IsComment line) ∧
      wordsOf line = ['p'] :: fields ∧ Header.ofFields fields = .ok header := by
  induction lines with
  | nil => cases found
  | cons line lines ih =>
      cases line with
      | error cause => cases found
      | ok text =>
          rw [readHeader] at found
          cases kind : Line.ofText text.toList with
          | comment =>
              rw [kind] at found
              obtain ⟨before, line, fields, rfl, comments, written, accepted⟩ := ih found
              refine ⟨.ok text :: before, line, fields, rfl, ?_, written, accepted⟩
              rw [List.forall_mem_cons]
              exact ⟨⟨⟨text, rfl⟩, ofText_eq_comment_iff.mp kind⟩, comments⟩
          | numbers tokens =>
              rw [kind] at found
              cases found
          | header fields =>
              rw [kind] at found
              dsimp only at found
              split at found
              case h_1 accepted =>
                  obtain ⟨rfl, rfl⟩ := Prod.mk.inj (Except.ok.inj found)
                  exact ⟨[], .ok text, fields, rfl, by simp, ofText_eq_header_iff.mp kind,
                    accepted⟩
              case h_2 => cases found

theorem exists_readHeader_of_readLines_eq_ok (read : readLines lines = .ok f) :
    ∃ header rest, readHeader lines = .ok (header, rest) := by
  cases found : readHeader lines with
  | error cause => simp [readLines, found, bind, Except.bind] at read
  | ok opening => exact ⟨opening.1, opening.2, rfl⟩

/-- With the header at hand, the formula is what is taken in of the lines that count. -/
theorem readLines_of_readHeader_eq_ok (found : readHeader lines = .ok (header, rest)) :
    readLines lines = .ok f ↔
      ∃ final, readClauses header .empty rest = .ok final ∧ final.formula = .ok f := by
  have opened : readLines lines =
      (readClauses header .empty rest).bind fun final => final.formula.mapError .format := by
    rw [readLines, found]
    rfl
  rw [opened]
  cases readClauses header .empty rest with
  | error cause => simp [Except.bind]
  | ok final => cases formula : final.formula <;> simp [Except.bind, Except.mapError, formula]

theorem readPart_append_header {clauseCount : Nat}
    (noNumbers : ∀ line ∈ before, ¬ IsNumbers line) (header : IsHeader line) :
    readPart clauseCount (before ++ line :: rest) =
      before ++ line :: linesRead clauseCount (before ++ [line]) rest := by
  rw [readPart_eq_linesRead, linesRead_append_of_no_numbers noNumbers, List.nil_append,
    linesRead_cons_of_not_stops (not_stops_append header.not_isNumbers)]

/-- What remains to be said of the lines that count, once the header is found. -/
theorem readLines_append_header_eq_ok_iff {after : List LineRead}
    (comments : ∀ line ∈ before, Readable line ∧ IsComment line)
    (written : wordsOf line = ['p'] :: fields) (accepted : Header.ofFields fields = .ok header)
    (part : readPart header.clauseCount (before ++ line :: rest) = before ++ line :: after) :
    readLines (before ++ line :: rest) = .ok f ↔
      (∀ line ∈ after, Readable line ∧ ¬ IsHeader line) ∧
      WritesNumbers header.variableCount (numberWords (before ++ line :: after)) f := by
  have isHeader : IsHeader line := isHeader_iff.mpr ⟨fields, written⟩
  have noNumbers : ∀ line ∈ before, ¬ IsNumbers line := fun line present =>
    (comments line present).2.not_isNumbers
  have follows : after = linesRead header.clauseCount (before ++ [line]) rest := by
    rw [readPart_append_header noNumbers isHeader, List.append_right_inj,
      List.cons_inj_right] at part
    exact part.symm
  have found : readHeader (before ++ line :: rest) = .ok (header, rest) :=
    (readHeader_append comments).trans (readHeader_cons_of_header written accepted)
  have taken : Progress.empty.addTokens header (numberWords (before ++ [line])) = .ok .empty := by
    rw [numberWords_append, numberWords_of_no_numbers noNumbers,
      numberWords_singleton_of_not isHeader.not_isNumbers]
    rfl
  rw [readLines_of_readHeader_eq_ok found]
  simp only [readClauses_eq_ok_iff taken, ← follows, TakesIn, and_assoc, exists_and_left]
  rw [← Progress.exists_formula_eq_ok_iff, ← List.append_cons]

/-- What is read is written: the header tells where the lines that count end. -/
theorem writes_of_readLines_eq_ok (read : readLines lines = .ok f) : Writes lines f := by
  obtain ⟨header, rest, found⟩ := exists_readHeader_of_readLines_eq_ok read
  obtain ⟨before, line, fields, rfl, comments, written, accepted⟩ :=
    exists_header_of_readHeader_eq_ok found
  have part : readPart header.clauseCount (before ++ line :: rest) = _ :=
    readPart_append_header (fun line present => (comments line present).2.not_isNumbers)
      (isHeader_iff.mpr ⟨fields, written⟩)
  obtain ⟨faultless, numbers⟩ :=
    (readLines_append_header_eq_ok_iff comments written accepted part).mp read
  refine ⟨header.variableCount, header.clauseCount, ?_⟩
  rw [part]
  refine { readable := ?_, declared := ?_, numbers }
  · rw [List.forall_mem_append, List.forall_mem_cons]
    exact ⟨fun line present => (comments line present).1,
      readable_of_wordsOf_eq_cons written, fun line present => (faultless line present).1⟩
  · exact ⟨before, line, _, rfl, fun line present => (comments line present).2,
      declares_iff.mpr ⟨fields, header, written, accepted, rfl, rfl⟩,
      fun line present => (faultless line present).2⟩

/-- What is written is read: the header that the lines that count declare is the one that
is found. -/
theorem readLines_eq_ok_of_writes (writes : Writes lines f) : readLines lines = .ok f := by
  obtain ⟨variableCount, clauseCount, writes⟩ := writes
  obtain ⟨before, line, after, part, comments, declares, noHeader⟩ := writes.declared
  obtain ⟨fields, header, written, accepted, rfl, rfl⟩ := declares_iff.mp declares
  obtain ⟨tail, whole⟩ := readPart_prefix header.clauseCount lines
  rw [part, List.append_assoc, List.cons_append] at whole
  subst whole
  have readable := writes.readable
  rw [part, List.forall_mem_append, List.forall_mem_cons] at readable
  have numbers := writes.numbers
  rw [part] at numbers
  refine (readLines_append_header_eq_ok_iff ?_ written accepted part).mpr ⟨?_, numbers⟩
  · exact fun line present => ⟨readable.1 line present, comments line present⟩
  · exact fun line present => ⟨readable.2.2 line present, noHeader line present⟩

/-- Lines are read exactly if they write a formula, and that formula is the result. -/
theorem readLines_eq_ok_iff : readLines lines = .ok f ↔ Writes lines f :=
  ⟨writes_of_readLines_eq_ok, readLines_eq_ok_of_writes⟩

/-- The clause goes on over two lines, and what follows it is never looked at. -/
example :
    let one : Variable := { index := 1 }
    let two : Variable := { index := 2 }
    parseText "p cnf 2 1\n1\n-2 0\np 3" = .ok ⟨[⟨[.positive one, .negative two]⟩]⟩ :=
  rfl

/-- A stream that ends without a failure gives a formula exactly if the lines between its
newlines write it. -/
theorem parse_eq_ok_iff_lines_write (bytes : List UInt8) (f : Formula) :
    parse ⟨bytes, none⟩ = .ok f ↔
      Writes ((linesOf ByteStream.newline bytes).map decode) f :=
  readLines_eq_ok_iff

end file

end Clausal.Dimacs
