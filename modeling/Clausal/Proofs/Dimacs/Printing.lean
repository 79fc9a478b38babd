/-
# Reading printed files

A printed file has its header on the first line and one clause on each line after it.
Every clause is complete when its line is, and before the last line a clause is missing,
so reading goes on to the end. What has to be required of the header is that it declares
enough of both, and of all numbers that they fit.
-/

import Clausal.Dimacs.Printer
import Clausal.Proofs.Dimacs.Acceptance
import Clausal.Proofs.Expression.Printing
import Clausal.Proofs.Text.Words

namespace Clausal

open Dimacs Text

/-- What a file with these two numbers in its header can hold. -/
structure Formula.Fits (f : Formula) (variableCount clauseCount : UInt64) : Prop where
  clauses : ∀ c ∈ f.clauses, c.Expressible
  /-- A literal is a signed number of 64 bits. -/
  signed : ∀ v ∈ f.vars, v.index < 2 ^ 63
  declared : ∀ v ∈ f.vars, v.index ≤ variableCount.toNat
  enough : f.clauses.length ≤ clauseCount.toNat

namespace Literal

variable {l : Literal}

/-- A literal that a file with this number of variables can hold. -/
structure Fits (l : Literal) (variableCount : Nat) : Prop where
  named : l.var.index ≠ 0
  signed : l.var.index < 2 ^ 63
  declared : l.var.index ≤ variableCount

/-- The number of the variable, negative if the literal is. -/
theorem writesLiteral_writeSigned (named : l.var.index ≠ 0) : WritesLiteral l.writeSigned l := by
  have written := writesDigits_toDigits l.var.index
  have positive := Nat.pos_of_ne_zero named
  rcases l with ⟨sign, v⟩
  cases sign with
  | positive => exact .positive (.bare written) positive
  | negative => exact .negative (.minus written) positive

theorem isWord_writeSigned (l : Literal) : IsWord l.writeSigned := by
  have isWord := isWord_toDigits l.var.index
  rcases l with ⟨sign, v⟩
  cases sign with
  | positive => exact isWord
  | negative => exact ⟨List.cons_ne_nil _ _, List.forall_mem_cons.mpr ⟨by decide, isWord.solid⟩⟩

/-- A number is no single letter, so it begins neither a comment nor a header. -/
theorem writeSigned_ne_letter {letter : Char} (noDigit : letter.isDigit = false)
    (noSign : letter ≠ '-') (l : Literal) : l.writeSigned ≠ [letter] := by
  intro same
  have digits := (writesDigits_toDigits l.var.index).digits
  rcases l with ⟨sign, v⟩
  cases sign with
  | positive =>
      have bare : Nat.toDigits 10 v.index = [letter] := same
      have digit : letter.isDigit = true := by
        apply digits
        show letter ∈ Nat.toDigits 10 v.index
        rw [bare]
        exact List.mem_cons_self
      exact Bool.false_ne_true (noDigit.symm.trans digit)
  | negative => exact noSign (List.cons.inj same).1.symm

theorem bounded_writeSigned {variableCount : Nat} (fits : l.Fits variableCount) :
    Bounded variableCount l.writeSigned := by
  have written := writesDigits_toDigits l.var.index
  rcases l with ⟨sign, v⟩
  have signed : v.index < 2 ^ 63 := fits.signed
  have declared : v.index ≤ variableCount := fits.declared
  cases sign with
  | positive => exact ⟨v.index, .bare written, by omega, by omega, by omega⟩
  | negative => exact ⟨-v.index, .minus written, by omega, by omega, by omega⟩

end Literal

namespace Dimacs

variable {header : Header}

theorem readEntry_writeSigned {l : Literal} (fits : l.Fits header.variableCount) :
    readEntry header l.writeSigned = .ok (some l) := by
  rcases exists_readEntry_eq_ok_iff.mpr (l.bounded_writeSigned fits) with ⟨entry, read⟩
  have written := l.writesLiteral_writeSigned fits.named
  cases entry with
  | none => exact False.elim (written.not_writes_zero (writesEntry_of_readEntry_eq_ok read))
  | some other =>
      have same : other = l := WritesLiteral.unique (writesEntry_of_readEntry_eq_ok read) written
      rw [read, same]

theorem readEntry_zero (header : Header) : readEntry header ['0'] = .ok none := by
  have zero : WritesInteger ['0'] 0 := by decide
  have bounded : Bounded header.variableCount ['0'] :=
    ⟨0, zero, by decide, by decide, Nat.zero_le _⟩
  rcases exists_readEntry_eq_ok_iff.mpr bounded with ⟨entry, read⟩
  cases entry with
  | none => exact read
  | some l =>
      have written : WritesLiteral ['0'] l := writesEntry_of_readEntry_eq_ok read
      exact False.elim (written.not_writes_zero zero)

namespace Progress

variable {progress : Progress}

theorem addTokens_map_writeSigned {ls : List Literal}
    (fits : ∀ l ∈ ls, l.Fits header.variableCount) :
    progress.addTokens header (ls.map Literal.writeSigned) =
      .ok ⟨progress.closed, progress.pending ++ ls⟩ := by
  induction ls generalizing progress with
  | nil => simp [addTokens, pure, Except.pure]
  | cons l ls ih =>
      rw [List.forall_mem_cons] at fits
      rw [List.map_cons, addTokens_cons, readEntry_writeSigned fits.1]
      show (progress.add (some l)).addTokens header (ls.map Literal.writeSigned) = _
      rw [ih fits.2, add]
      simp

/-- The words of one clause complete it. -/
theorem addTokens_clause {c : Clause} (someLiteral : c.literals ≠ [])
    (fits : ∀ l ∈ c.literals, l.Fits header.variableCount) (closed : Array Clause) :
    addTokens header ⟨closed, #[]⟩ (c.literals.map Literal.writeSigned ++ [['0']]) =
      .ok ⟨closed.push c, #[]⟩ := by
  rw [addTokens_append, addTokens_map_writeSigned fits]
  show addTokens header _ [['0']] = _
  rw [addTokens_cons, readEntry_zero]
  show Except.ok (add _ none) = _
  simp [add, someLiteral]

end Progress

end Dimacs

/-- The line of a clause, without the newline at its end. -/
def Clause.line (c : Clause) : List Char :=
  spaced (c.literals.map Literal.writeSigned) ['0']

/-- The line of a header, without the newline at its end. -/
def Dimacs.Header.line (header : Header) : List Char :=
  spaced [['p'], ['c', 'n', 'f'], Nat.toDigits 10 header.variableCount]
    (Nat.toDigits 10 header.clauseCount)

section lines

variable {f : Formula} {header : Header}

theorem Clause.isWord_of_mem (c : Clause) :
    ∀ word ∈ c.literals.map Literal.writeSigned, IsWord word := by
  intro word listed
  rcases List.mem_map.mp listed with ⟨l, -, rfl⟩
  exact l.isWord_writeSigned

theorem Clause.words_line (c : Clause) :
    words c.line = c.literals.map Literal.writeSigned ++ [['0']] :=
  words_spaced c.isWord_of_mem (by decide)

theorem Clause.newline_not_mem_line (c : Clause) : '\n' ∉ c.line :=
  newline_not_mem_spaced c.isWord_of_mem (by decide)

theorem Dimacs.Header.isWord_of_mem (header : Header) :
    ∀ word ∈ [['p'], ['c', 'n', 'f'], Nat.toDigits 10 header.variableCount], IsWord word := by
  simp only [List.forall_mem_cons]
  exact ⟨by decide, by decide, isWord_toDigits _, by simp⟩

theorem Dimacs.Header.words_line (header : Header) :
    words header.line = [['p'], ['c', 'n', 'f'], Nat.toDigits 10 header.variableCount,
      Nat.toDigits 10 header.clauseCount] :=
  words_spaced header.isWord_of_mem (isWord_toDigits _)

theorem Dimacs.Header.newline_not_mem_line (header : Header) : '\n' ∉ header.line :=
  newline_not_mem_spaced header.isWord_of_mem (isWord_toDigits _)

theorem Clause.writeLine_eq (c : Clause) : c.writeLine = c.line ++ ['\n'] := by
  simp [writeLine, line, spaced, List.flatMap_map]

theorem Dimacs.Header.line_append_newline (header : Header) :
    header.line ++ ['\n'] = "p cnf ".toList ++ Nat.toDigits 10 header.variableCount ++ [' '] ++
      Nat.toDigits 10 header.clauseCount ++ ['\n'] := by
  have opening : "p cnf ".toList = ['p', ' ', 'c', 'n', 'f', ' '] := by decide
  rw [opening]
  simp [line, spaced]

/-- A printed file is its lines, all of them ended by a newline. -/
theorem Formula.writeDimacs_eq (f : Formula) (header : Header) :
    f.writeDimacs header.variableCount header.clauseCount =
      (header.line :: f.clauses.map Clause.line).flatMap fun line => line ++ ['\n'] := by
  have clauseLines : f.clauses.flatMap Clause.writeLine =
      (f.clauses.map Clause.line).flatMap fun line => line ++ ['\n'] := by
    rw [List.flatMap_map, funext Clause.writeLine_eq]
  rw [List.flatMap_cons, header.line_append_newline, ← clauseLines]
  rfl

theorem Formula.linesOf_writeDimacs (f : Formula) (header : Header) :
    linesOf '\n' (f.writeDimacs header.variableCount header.clauseCount) =
      header.line :: f.clauses.map Clause.line := by
  have clean : ∀ line ∈ header.line :: f.clauses.map Clause.line, '\n' ∉ line := by
    rw [List.forall_mem_cons]
    apply And.intro header.newline_not_mem_line
    intro line listed
    rcases List.mem_map.mp listed with ⟨c, -, rfl⟩
    exact c.newline_not_mem_line
  rw [writeDimacs_eq, linesOf_flatMap_newline clean]

end lines

namespace Dimacs

variable {header : Header}

/-- The line of a clause begins with a number. -/
theorem ofText_clauseLine {c : Clause} (someLiteral : c.literals ≠ []) :
    Line.ofText (String.ofList c.line).toList =
      .numbers (c.literals.map Literal.writeSigned ++ [['0']]) := by
  rcases List.exists_cons_of_ne_nil someLiteral with ⟨l, ls, split⟩
  have noComment : l.writeSigned ≠ ['c'] := l.writeSigned_ne_letter (by decide) (by decide)
  have noHeader : l.writeSigned ≠ ['p'] := l.writeSigned_ne_letter (by decide) (by decide)
  apply ofText_eq_numbers_iff.mpr
  rw [IsNumbers, IsComment, IsHeader, wordsOf_ofList, c.words_line, split]
  simpa using ⟨noComment, noHeader⟩

/-- Each line completes a clause, and only the last of them may complete the last one that the
header declares. -/
theorem readClauses_clauseLines {cs : List Clause} {closed : Array Clause}
    (room : closed.size + cs.length ≤ header.clauseCount)
    (someLiteral : ∀ c ∈ cs, c.literals ≠ [])
    (fits : ∀ c ∈ cs, ∀ l ∈ c.literals, l.Fits header.variableCount) :
    readClauses header ⟨closed, #[]⟩ (cs.map fun c => .ok (String.ofList c.line)) =
      .ok ⟨closed ++ cs, #[]⟩ := by
  induction cs generalizing closed with
  | nil => simp [readClauses]
  | cons c cs ih =>
      rw [List.forall_mem_cons] at someLiteral fits
      rw [List.length_cons] at room
      have roomLeft : (closed.push c).size + cs.length ≤ header.clauseCount := by
        rw [Array.size_push]
        omega
      have next := ih roomLeft someLiteral.2 fits.2
      rw [List.map_cons, readClauses, ofText_clauseLine someLiteral.1]
      dsimp only
      rw [Progress.addTokens_clause someLiteral.1 fits.1]
      dsimp only
      by_cases complete : header.clauseCount ≤ (closed.push c).size
      · have last : cs = [] := List.eq_nil_of_length_eq_zero (by omega)
        rw [if_pos complete, last]
        simp
      · rw [if_neg complete, next]
        simp

theorem readHeader_headerLine (header : Header) (clauseCount_lt : header.clauseCount < 2 ^ 64)
    (rest : List LineRead) :
    readHeader (.ok (String.ofList header.line) :: rest) = .ok (header, rest) := by
  have written : wordsOf (.ok (String.ofList header.line)) = _ :=
    (wordsOf_ofList _).trans header.words_line
  apply readHeader_cons_of_header written
  apply ofFields_eq_ok_iff.mpr
  exact ⟨_, _, [], rfl,
    unsigned?_eq_some_iff.mpr ⟨.bare (writesDigits_toDigits _), header.variableCount_lt⟩,
    unsigned?_eq_some_iff.mpr ⟨.bare (writesDigits_toDigits _), clauseCount_lt⟩⟩

end Dimacs

namespace Formula

variable {f : Formula} {variableCount clauseCount : UInt64}

theorem Fits.literal (fits : f.Fits variableCount clauseCount) :
    ∀ c ∈ f.clauses, ∀ l ∈ c.literals, l.Fits variableCount.toNat := by
  intro c inFormula l inClause
  have mentioned : l.var ∈ f.vars := mem_vars.mpr ⟨c, inFormula, l, inClause, rfl⟩
  exact ⟨(fits.clauses c inFormula).named l inClause, fits.signed _ mentioned,
    fits.declared _ mentioned⟩

/-- A printed file is read back. -/
theorem parseText_writeDimacs (fits : f.Fits variableCount clauseCount) :
    parseText (String.ofList (f.writeDimacs variableCount.toNat clauseCount.toNat)) = .ok f := by
  let header : Header := ⟨variableCount.toNat, clauseCount.toNat, variableCount.toNat_lt⟩
  have lines : linesOf '\n' (String.ofList
      (f.writeDimacs header.variableCount header.clauseCount)).toList =
        header.line :: f.clauses.map Clause.line := by
    rw [String.toList_ofList, f.linesOf_writeDimacs header]
  have someLiteral : ∀ c ∈ f.clauses, c.literals ≠ [] := fun c inFormula =>
    (fits.clauses c inFormula).someLiteral
  have room : (#[] : Array Clause).size + f.clauses.length ≤ header.clauseCount := by
    simpa using fits.enough
  have opened := readHeader_headerLine header clauseCount.toNat_lt
  rw [parseText, lines, List.map_cons, List.map_map]
  apply (readLines_of_readHeader_eq_ok (opened _)).mpr
  exact ⟨_, readClauses_clauseLines room someLiteral fits.literal, by simp [Progress.formula]⟩

end Formula

end Clausal
