/-
# The declared number of clauses

Reading stops when as many clauses are complete as the header declares, but this is
looked at only behind a line of numbers, and never before the first one. The line at
which reading stops may complete more clauses than are missing. That is the one way in
which a formula gets more clauses than declared, and it takes a line on which two
clauses end, or a header that declares none.
-/

import Clausal.Proofs.Dimacs.Acceptance

namespace Clausal.Dimacs

open Text

section closedSegments

variable {numbers : List (List Char)} {word : List Char} {f : Formula} {variableCount : Nat}

/-- The number of zeros among the words. -/
def zeros (words : List (List Char)) : Nat :=
  words.countP fun word => WritesInteger word 0

theorem exists_segments_eq (numbers : List (List Char)) :
    ∃ done last, segments numbers = done ++ [last] :=
  ⟨_, _, (List.dropLast_append_getLast (List.splitOnP_ne_nil _ _)).symm⟩

/-- A zero closes the segment before it. -/
theorem closedSegments_append_zero (zero : WritesInteger word 0) :
    closedSegments (numbers ++ [word]) =
      (segments numbers).filter fun segment => !segment.isEmpty := by
  rw [closedSegments, segments_append_zero zero, List.dropLast_concat]

/-- One word more completes no clause but the one that it ends. -/
theorem length_closedSegments_append_singleton (numbers : List (List Char)) (word : List Char) :
    (closedSegments numbers).length ≤ (closedSegments (numbers ++ [word])).length ∧
      (closedSegments (numbers ++ [word])).length ≤
        (closedSegments numbers).length + zeros [word] := by
  by_cases zero : WritesInteger word 0
  · rcases exists_segments_eq numbers with ⟨done, last, split⟩
    have atMostOne := List.length_filter_le (fun segment : List (List Char) => !segment.isEmpty)
      [last]
    rw [List.length_singleton] at atMostOne
    have one : zeros [word] = 1 := by simp [zeros, zero]
    rw [closedSegments_append_zero zero, closedSegments, split, List.dropLast_concat,
      List.filter_append, List.length_append, one]
    exact ⟨Nat.le_add_right _ _, Nat.add_le_add_left atMostOne _⟩
  · rcases exists_segments_append numbers zero with ⟨done, last, split, after⟩
    have same : closedSegments (numbers ++ [word]) = closedSegments numbers := by
      rw [closedSegments, closedSegments, split, after, List.dropLast_concat, List.dropLast_concat]
    rw [same]
    exact ⟨Nat.le_refl _, Nat.le_add_right _ _⟩

/-- Further words take no clause back, and complete at most one with each zero. -/
theorem length_closedSegments_append (numbers words : List (List Char)) :
    (closedSegments numbers).length ≤ (closedSegments (numbers ++ words)).length ∧
      (closedSegments (numbers ++ words)).length ≤
        (closedSegments numbers).length + zeros words := by
  induction words generalizing numbers with
  | nil => simp [zeros]
  | cons word words ih =>
      have step := length_closedSegments_append_singleton numbers word
      have run := ih (numbers ++ [word])
      have counted : zeros (word :: words) = zeros [word] + zeros words := by
        show zeros ([word] ++ words) = _
        exact List.countP_append
      rw [List.append_cons, counted]
      omega

/-- Where no clause is left open, the clauses of the formula are those that are complete. -/
theorem WritesNumbers.length_clauses (written : WritesNumbers variableCount numbers f) :
    f.clauses.length = (closedSegments numbers).length := by
  rcases exists_segments_eq numbers with ⟨done, last, split⟩
  have nothingOpen : last = [] := (last_eq_nil_iff split).mpr written.closed
  have clauses := written.clauses.length_eq
  rw [split, nothingOpen, List.filter_append] at clauses
  rw [closedSegments, split, List.dropLast_concat, ← clauses]
  simp

end closedSegments

section lines

variable {clauseCount : Nat} {consumed before rest : List LineRead} {line : LineRead}

/-- The number of clauses that are complete at the end of the lines. -/
def complete (lines : List LineRead) : Nat :=
  (closedSegments (numberWords lines)).length

/-- Reading goes on behind these lines: clauses are missing, or no numbers have been read. -/
def Awaits (clauseCount : Nat) (consumed : List LineRead) : Prop :=
  complete consumed < clauseCount ∨ ∀ line ∈ consumed, ¬ IsNumbers line

/-- A line that is still read completes more clauses than are missing before it. -/
structure Overshoots (clauseCount : Nat) (before : List LineRead) (line : LineRead) : Prop where
  numbers : IsNumbers line
  awaited : Awaits clauseCount before
  excess : clauseCount < complete (before ++ [line])

theorem complete_append (consumed lines : List LineRead) :
    complete consumed ≤ complete (consumed ++ lines) ∧
      complete (consumed ++ lines) ≤ complete consumed + zeros (numberWords lines) := by
  rw [complete, complete, numberWords_append]
  exact length_closedSegments_append _ _

theorem complete_append_of_not_isNumbers (notNumbers : ¬ IsNumbers line) :
    complete (consumed ++ [line]) = complete consumed := by
  rw [complete, complete, numberWords_append, numberWords_singleton_of_not notNumbers,
    List.append_nil]

theorem complete_of_no_numbers (noNumbers : ∀ line ∈ consumed, ¬ IsNumbers line) :
    complete consumed = 0 := by
  rw [complete, numberWords_of_no_numbers noNumbers]
  rfl

theorem stops_append_singleton_iff :
    Stops clauseCount (consumed ++ [line]) ↔
      IsNumbers line ∧ clauseCount ≤ complete (consumed ++ [line]) := by
  rw [Stops, List.getLast?_concat, complete]
  simp

/-- Where reading does not stop behind a line, it goes on. -/
theorem Awaits.append_singleton (awaits : Awaits clauseCount consumed)
    (goesOn : ¬ Stops clauseCount (consumed ++ [line])) :
    Awaits clauseCount (consumed ++ [line]) := by
  by_cases numbers : IsNumbers line
  · rw [stops_append_singleton_iff, not_and, Nat.not_le] at goesOn
    exact Or.inl (goesOn numbers)
  · rcases awaits with missing | noNumbers
    · rw [← complete_append_of_not_isNumbers numbers] at missing
      exact Or.inl missing
    · apply Or.inr
      rw [List.forall_mem_append, List.forall_mem_singleton]
      exact ⟨noNumbers, numbers⟩

/-- Behind the line at which reading stops, no line is awaited. -/
theorem not_awaits_of_stops (stops : Stops clauseCount (consumed ++ [line]))
    (lines : List LineRead) : ¬ Awaits clauseCount (consumed ++ [line] ++ lines) := by
  rw [stops_append_singleton_iff] at stops
  intro awaits
  rcases awaits with missing | noNumbers
  · have kept := (complete_append (consumed ++ [line]) lines).1
    omega
  · exact noNumbers line (by simp) stops.1

/-- Some line of the rest overshoots, when the consumed lines come before the rest. -/
def SomeOvershoots (clauseCount : Nat) (consumed rest : List LineRead) : Prop :=
  ∃ before line after, rest = before ++ line :: after ∧
    Overshoots clauseCount (consumed ++ before) line

theorem not_someOvershoots_nil : ¬ SomeOvershoots clauseCount consumed [] := by
  simp [SomeOvershoots]

/-- The line that overshoots is the next one or comes after it. -/
theorem someOvershoots_cons_iff :
    SomeOvershoots clauseCount consumed (line :: rest) ↔
      Overshoots clauseCount consumed line ∨
        SomeOvershoots clauseCount (consumed ++ [line]) rest := by
  apply Iff.intro
  · intro overshot
    rcases overshot with ⟨before, other, after, split, overshoots⟩
    cases before with
    | nil =>
        have same : line = other := (List.cons.inj split).1
        rw [List.append_nil, ← same] at overshoots
        exact Or.inl overshoots
    | cons first before =>
        rcases List.cons.inj split with ⟨same, later⟩
        rw [← same, List.append_cons] at overshoots
        exact Or.inr ⟨before, other, after, later, overshoots⟩
  · intro overshot
    rcases overshot with overshoots | ⟨before, other, after, later, overshoots⟩
    · rw [← List.append_nil consumed] at overshoots
      exact ⟨[], line, rest, rfl, overshoots⟩
    · rw [← List.append_cons] at overshoots
      exact ⟨line :: before, other, after, congrArg (line :: ·) later, overshoots⟩

theorem Overshoots.stops (overshoots : Overshoots clauseCount consumed line) :
    Stops clauseCount (consumed ++ [line]) :=
  stops_append_singleton_iff.mpr ⟨overshoots.numbers, Nat.le_of_lt overshoots.excess⟩

/-- Behind the line at which reading stops, no line overshoots. -/
theorem not_someOvershoots_of_stops (stops : Stops clauseCount (consumed ++ [line])) :
    ¬ SomeOvershoots clauseCount (consumed ++ [line]) rest := by
  intro overshot
  rcases overshot with ⟨before, other, after, -, overshoots⟩
  exact not_awaits_of_stops stops before overshoots.awaited

/-- Too many clauses are complete at the end of what is read exactly when some line of the rest
overshoots. -/
theorem lt_complete_linesRead_iff (awaits : Awaits clauseCount consumed) :
    clauseCount < complete (consumed ++ linesRead clauseCount consumed rest) ↔
      SomeOvershoots clauseCount consumed rest := by
  induction rest generalizing consumed with
  | nil =>
      apply iff_of_false
      · rw [linesRead, List.append_nil, Nat.not_lt]
        rcases awaits with missing | noNumbers
        · exact Nat.le_of_lt missing
        · rw [complete_of_no_numbers noNumbers]
          exact Nat.zero_le _
      · exact not_someOvershoots_nil
  | cons line rest ih =>
      rw [someOvershoots_cons_iff]
      by_cases stops : Stops clauseCount (consumed ++ [line])
      · rw [linesRead_cons_of_stops stops, or_iff_left (not_someOvershoots_of_stops stops)]
        have numbers := (stops_append_singleton_iff.mp stops).1
        exact ⟨fun excess => ⟨numbers, awaits, excess⟩, Overshoots.excess⟩
      · rw [linesRead_cons_of_not_stops stops, List.append_cons,
          or_iff_right fun overshoots : Overshoots clauseCount consumed line =>
            stops overshoots.stops]
        exact ih (awaits.append_singleton stops)

/-- It takes two clauses that end on one line, or a header that declares none. -/
theorem Overshoots.two_le_zeros (overshoots : Overshoots clauseCount before line)
    (declaresAny : 0 < clauseCount) : 2 ≤ zeros (wordsOf line) := by
  have most := (complete_append before [line]).2
  rw [numberWords_singleton overshoots.numbers] at most
  have excess := overshoots.excess
  rcases overshoots.awaited with missing | noNumbers
  · omega
  · have nothingComplete := complete_of_no_numbers noNumbers
    omega

end lines

section file

variable {clauseCount : Nat} {lines : List LineRead} {s : ByteStream} {f : Formula}

/-- The first line that is no comment is a header that declares this number of clauses. -/
def Opens (clauseCount : Nat) (lines : List LineRead) : Prop :=
  ∃ before header after variableCount, lines = before ++ header :: after ∧
    (∀ line ∈ before, IsComment line) ∧ Declares header variableCount clauseCount

theorem Declares.isHeader {line : LineRead} {variableCount : Nat}
    (declares : Declares line variableCount clauseCount) : IsHeader line := by
  rcases declares_iff.mp declares with ⟨fields, -, written, -⟩
  exact isHeader_iff.mpr ⟨fields, written⟩

/-- A header declares one number of variables and one of clauses. -/
theorem Declares.unique {line : LineRead} {variableCount otherVariables otherClauses : Nat}
    (first : Declares line variableCount clauseCount)
    (second : Declares line otherVariables otherClauses) :
    variableCount = otherVariables ∧ clauseCount = otherClauses := by
  rcases declares_iff.mp first with ⟨fields, header, written, accepted, rfl, rfl⟩
  rcases declares_iff.mp second with ⟨others, otherHeader, alsoWritten, alsoAccepted, rfl, rfl⟩
  have sameFields : fields = others := (List.cons.inj (written.symm.trans alsoWritten)).2
  rw [sameFields] at accepted
  rw [Except.ok.inj (accepted.symm.trans alsoAccepted)]
  exact ⟨rfl, rfl⟩

/-- Of two places in a list, they are one place or one of them comes first. -/
theorem split_trichotomy {α : Type} {before otherBefore after otherAfter : List α} {a b : α}
    (same : before ++ a :: after = otherBefore ++ b :: otherAfter) :
    before = otherBefore ∧ a = b ∨ a ∈ otherBefore ∧ b ∈ after ∨ b ∈ before ∧ a ∈ otherAfter := by
  rcases List.append_eq_append_iff.mp same with ⟨gap, longer, rest⟩ | ⟨gap, longer, rest⟩
  · cases gap with
    | nil => exact Or.inl ⟨by simpa using longer.symm, (List.cons.inj rest).1⟩
    | cons first gap =>
        obtain ⟨rfl, rfl⟩ := List.cons.inj rest
        exact Or.inr (Or.inl ⟨by simp [longer], by simp⟩)
  · cases gap with
    | nil => exact Or.inl ⟨by simpa using longer, (List.cons.inj rest).1.symm⟩
    | cons first gap =>
        obtain ⟨rfl, rfl⟩ := List.cons.inj rest
        exact Or.inr (Or.inr ⟨by simp [longer], by simp⟩)

/-- There is one first line that is no comment. -/
theorem header_unique {before otherBefore after otherAfter : List LineRead}
    {header otherHeader : LineRead}
    (same : before ++ header :: after = otherBefore ++ otherHeader :: otherAfter)
    (comments : ∀ line ∈ before, IsComment line) (isHeader : IsHeader header)
    (otherComments : ∀ line ∈ otherBefore, IsComment line) (otherIsHeader : IsHeader otherHeader) :
    header = otherHeader := by
  rcases split_trichotomy same with ⟨-, here⟩ | ⟨earlier, -⟩ | ⟨earlier, -⟩
  · exact here
  · exact False.elim ((otherComments header earlier).not_isHeader isHeader)
  · exact False.elim ((comments otherHeader earlier).not_isHeader otherIsHeader)

/-- A file opens with one number of clauses. -/
theorem Opens.unique {other : Nat} (first : Opens clauseCount lines) (second : Opens other lines) :
    clauseCount = other := by
  rcases first with ⟨before, header, after, _, split, comments, declares⟩
  rcases second with ⟨otherBefore, otherHeader, otherAfter, _, otherSplit, otherComments,
    otherDeclares⟩
  have same : header = otherHeader :=
    header_unique (split.symm.trans otherSplit) comments declares.isHeader otherComments
      otherDeclares.isHeader
  subst same
  exact (declares.unique otherDeclares).2

/-- A formula that is read has the clauses that are complete at the end of the lines that
count. -/
theorem length_clauses_of_readLines_eq_ok (read : readLines lines = .ok f)
    (opens : Opens clauseCount lines) :
    f.clauses.length = complete (linesRead clauseCount [] lines) := by
  rcases readLines_eq_ok_iff.mp read with ⟨variableCount, declaredCount, written⟩
  rcases written.declared with ⟨before, header, after, part, comments, declares, -⟩
  rcases readPart_prefix declaredCount lines with ⟨tail, whole⟩
  have alsoOpens : Opens declaredCount lines := by
    refine ⟨before, header, after ++ tail, variableCount, ?_, comments, declares⟩
    rw [← whole, part, List.append_assoc, List.cons_append]
  have same : clauseCount = declaredCount := opens.unique alsoOpens
  subst same
  rw [written.numbers.length_clauses, readPart_eq_linesRead, complete]

/-- A formula has at most as many clauses as its header declares, unless there is a line that
overshoots: one that is still read and completes more clauses than are missing. No line does,
if the header declares a clause at all and no two clauses end on one line. -/
theorem length_clauses_le_iff_no_line_overshoots (read : parse s = .ok f)
    (opens : Opens clauseCount s.lines) :
    (f.clauses.length ≤ clauseCount ↔ ¬ ∃ before line after,
      s.lines = before ++ line :: after ∧ Overshoots clauseCount before line) ∧
    (0 < clauseCount → (∀ line ∈ s.lines, zeros (wordsOf line) ≤ 1) →
      f.clauses.length ≤ clauseCount) := by
  have start : Awaits clauseCount [] := Or.inr (by simp)
  have law : f.clauses.length ≤ clauseCount ↔ ¬ ∃ before line after,
      s.lines = before ++ line :: after ∧ Overshoots clauseCount before line := by
    rw [length_clauses_of_readLines_eq_ok read opens, ← Nat.not_lt]
    exact not_congr (lt_complete_linesRead_iff start)
  apply And.intro law
  intro declaresAny oneZero
  apply law.mpr
  intro overshot
  rcases overshot with ⟨before, line, after, split, overshoots⟩
  have two := overshoots.two_le_zeros declaresAny
  have one := oneZero line (by simp [split])
  omega

theorem opens_header_line (rest : List LineRead) : Opens 1 (.ok "p cnf 2 1" :: rest) := by
  have written : wordsOf (.ok "p cnf 2 1") = [['p'], ['c', 'n', 'f'], ['2'], ['1']] := by
    decide +kernel
  have declares : Declares (.ok "p cnf 2 1") 2 1 :=
    ⟨['2'], ['1'], [], written, .bare (by decide), by decide, .bare (by decide), by decide⟩
  exact ⟨[], .ok "p cnf 2 1", rest, 2, rfl, by simp, declares⟩

/-- Where the one declared clause is on a line of its own, no line overshoots. -/
theorem length_clauses_le_iff_no_line_overshoots_own_line :
    let s : ByteStream := ⟨"p cnf 2 1\n1 -2 0\n-2 0\n".toUTF8.toList, none⟩
    let f : Formula := ⟨[⟨[.positive { index := 1 }, .negative { index := 2 }]⟩]⟩
    parse s = .ok f ∧ Opens 1 s.lines ∧ ¬ ∃ before line after,
      s.lines = before ++ line :: after ∧ Overshoots 1 before line := by
  intro s f
  have read : parse s = .ok f := by decide +kernel
  have lines : s.lines = [.ok "p cnf 2 1", .ok "1 -2 0", .ok "-2 0"] := by decide +kernel
  have opens : Opens 1 s.lines := lines ▸ opens_header_line _
  exact ⟨read, opens, (length_clauses_le_iff_no_line_overshoots read opens).1.mp (by decide)⟩

/-- Two clauses end on the line at which reading stops, and both are read where one is
declared. -/
theorem two_clauses_read_where_one_is_declared :
    let s : ByteStream := ⟨"p cnf 2 1\n1 0 -2 0\n".toUTF8.toList, none⟩
    let f : Formula := ⟨[⟨[.positive { index := 1 }]⟩, ⟨[.negative { index := 2 }]⟩]⟩
    parse s = .ok f ∧ Opens 1 s.lines ∧ ¬ f.clauses.length ≤ 1 := by
  intro s f
  have read : parse s = .ok f := by decide +kernel
  have lines : s.lines = [.ok "p cnf 2 1", .ok "1 0 -2 0"] := by decide +kernel
  exact ⟨read, lines ▸ opens_header_line _, by decide⟩

end file

end Clausal.Dimacs
