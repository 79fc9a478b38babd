/-
# Lines and their words

What one line amounts to for the reader, said through its words: of which kind it
is, which two numbers a header declares, and what a number stands for.
-/

import Clausal.Dimacs.Grammar
import Clausal.Proofs.Text.Decimal
import Mathlib.Data.List.Forall2

namespace Clausal.Dimacs

open Text

theorem wordsOf_ofList (text : List Char) : wordsOf (.ok (String.ofList text)) = words text := by
  rw [wordsOf, String.toList_ofList]

section kind

variable {text : String} {fields tokens : List (List Char)}

/-- The kind of a line depends on its words alone. -/
theorem ofText_eq (text : String) :
    Line.ofText text.toList = match wordsOf (.ok text) with
      | [] => .comment
      | first :: rest =>
          if first = ['c'] then .comment
          else if first = ['p'] then .header rest
          else .numbers (first :: rest) :=
  rfl

theorem ofText_eq_comment_iff :
    Line.ofText text.toList = .comment ↔ IsComment (.ok text) := by
  rw [ofText_eq, IsComment]
  cases wordsOf (.ok text) with
  | nil => simp
  | cons first rest =>
      by_cases comment : first = ['c']
      · simp [comment]
      · by_cases header : first = ['p'] <;> simp [comment, header]

theorem ofText_eq_header_iff :
    Line.ofText text.toList = .header fields ↔ wordsOf (.ok text) = ['p'] :: fields := by
  rw [ofText_eq]
  cases wordsOf (.ok text) with
  | nil => simp
  | cons first rest =>
      by_cases comment : first = ['c']
      · simp [comment]
      · by_cases header : first = ['p'] <;> simp [comment, header]

theorem ofText_eq_numbers_iff :
    Line.ofText text.toList = .numbers tokens ↔
      IsNumbers (.ok text) ∧ wordsOf (.ok text) = tokens := by
  rw [ofText_eq, IsNumbers, IsComment, IsHeader]
  cases wordsOf (.ok text) with
  | nil => simp
  | cons first rest =>
      by_cases comment : first = ['c']
      · simp [comment]
      · by_cases header : first = ['p'] <;> simp [comment, header]

theorem isHeader_iff {line : LineRead} :
    IsHeader line ↔ ∃ fields, wordsOf line = ['p'] :: fields := by
  unfold IsHeader
  cases wordsOf line <;> simp

end kind

/-- The words after the first of a header are a name and the two numbers. -/
theorem ofFields_eq_ok_iff {fields : List (List Char)} {header : Header} :
    Header.ofFields fields = .ok header ↔
      ∃ variableWord clauseWord further,
        fields = ['c', 'n', 'f'] :: variableWord :: clauseWord :: further ∧
          unsigned? variableWord = some header.variableCount ∧
          unsigned? clauseWord = some header.clauseCount := by
  apply Iff.intro
  · intro accepted
    unfold Header.ofFields at accepted
    split at accepted
    case isTrue named =>
        split at accepted
        case h_1 => cases accepted
        case h_2 variableCount readVariables =>
            split at accepted
            case h_1 => cases accepted
            case h_2 clauseCount readClauses =>
                cases accepted
                rcases fields with _ | ⟨name, _ | ⟨variableWord, _ | ⟨clauseWord, further⟩⟩⟩
                · cases named
                · cases readVariables
                · cases readClauses
                · obtain rfl := Option.some_inj.mp named
                  exact ⟨variableWord, clauseWord, further, rfl, readVariables, readClauses⟩
    case isFalse => cases accepted
  · intro written
    rcases written with ⟨variableWord, clauseWord, further, rfl, readVariables, readClauses⟩
    rw [Header.ofFields, if_pos List.head?_cons]
    split
    case h_1 declared => exact absurd (readVariables.symm.trans declared) (by simp)
    case h_2 variableCount declared =>
        obtain rfl := Option.some_inj.mp (declared.symm.trans readVariables)
        simp [readClauses]

/-- A line declares two numbers when they are accepted as a header. -/
theorem declares_iff {line : LineRead} {variableCount clauseCount : Nat} :
    Declares line variableCount clauseCount ↔
      ∃ fields header, wordsOf line = ['p'] :: fields ∧ Header.ofFields fields = .ok header ∧
        header.variableCount = variableCount ∧ header.clauseCount = clauseCount := by
  apply Iff.intro
  · intro declares
    rcases declares with ⟨variableWord, clauseWord, further, written, writesVariables, variablesFit,
      writesClauses, clausesFit⟩
    refine ⟨_, ⟨variableCount, clauseCount, variablesFit⟩, written, ?_, rfl, rfl⟩
    exact ofFields_eq_ok_iff.mpr ⟨variableWord, clauseWord, further, rfl,
      unsigned?_eq_some_iff.mpr ⟨writesVariables, variablesFit⟩,
      unsigned?_eq_some_iff.mpr ⟨writesClauses, clausesFit⟩⟩
  · intro accepted
    rcases accepted with ⟨fields, header, written, accepts, rfl, rfl⟩
    obtain ⟨variableWord, clauseWord, further, rfl, readVariables, readClauses⟩ :=
      ofFields_eq_ok_iff.mp accepts
    obtain ⟨writesVariables, variablesFit⟩ := unsigned?_eq_some_iff.mp readVariables
    obtain ⟨writesClauses, clausesFit⟩ := unsigned?_eq_some_iff.mp readClauses
    exact ⟨variableWord, clauseWord, further, written, writesVariables, variablesFit,
      writesClauses, clausesFit⟩

section entry

variable {header : Header} {word : List Char} {entry : Option Literal}

/-- The word writes a literal, or the zero that ends a clause. -/
def WritesEntry (word : List Char) : Option Literal → Prop
  | some l => WritesLiteral word l
  | none => WritesInteger word 0

/-- A number that is read stands for what it writes. -/
theorem writesEntry_of_readEntry_eq_ok (read : readEntry header word = .ok entry) :
    WritesEntry word entry := by
  unfold readEntry at read
  split at read
  case h_1 => simp at read
  case h_2 z signed =>
      have written := (signed?_eq_some_iff.mp signed).1
      split at read
      case isTrue declared =>
          dsimp only at read
          split at read
          case isTrue zero =>
              obtain rfl := Except.ok.inj read
              rwa [zero] at written
          case isFalse nonzero =>
              obtain rfl := Except.ok.inj read
              by_cases positive : 0 < z
              · rw [if_pos positive]
                refine .positive ?_ (Int.natAbs_pos.mpr nonzero)
                rwa [Int.natAbs_of_nonneg (Int.le_of_lt positive)]
              · rw [if_neg positive]
                refine .negative ?_ (Int.natAbs_pos.mpr nonzero)
                rwa [Int.ofNat_natAbs_of_nonpos (Int.not_lt.mp positive), Int.neg_neg]
      case isFalse => simp at read

/-- A word is read unless it writes no number or one that is out of bounds. -/
theorem exists_readEntry_eq_ok_iff :
    (∃ entry, readEntry header word = .ok entry) ↔ Bounded header.variableCount word := by
  unfold readEntry Bounded
  cases signed : signed? word with
  | none =>
      apply iff_of_false (by simp)
      rintro ⟨z, written, lower, upper, -⟩
      have read := signed?_eq_some_iff.mpr ⟨written, lower, upper⟩
      exact Option.some_ne_none z (read.symm.trans signed)
  | some z =>
      obtain ⟨written, lower, upper⟩ := signed?_eq_some_iff.mp signed
      by_cases declared : z.natAbs ≤ header.variableCount
      · apply iff_of_true
        · by_cases zero : z = 0 <;> simp [declared, zero]
        · exact ⟨z, written, lower, upper, declared⟩
      · apply iff_of_false
        · simp [declared]
        · rintro ⟨other, alsoWritten, -, -, small⟩
          exact declared (alsoWritten.unique written ▸ small)

theorem WritesLiteral.not_writes_zero {l : Literal} (written : WritesLiteral word l) :
    ¬ WritesInteger word 0 := by
  intro zero
  cases written with
  | positive written named =>
      have same := written.unique zero
      omega
  | negative written named =>
      have same := written.unique zero
      omega

/-- A word writes at most one literal. -/
theorem WritesLiteral.unique {first second : Literal} (writesFirst : WritesLiteral word first)
    (writesSecond : WritesLiteral word second) : first = second := by
  cases writesFirst with
  | positive written named =>
      cases writesSecond with
      | positive alsoWritten alsoNamed =>
          have same := written.unique alsoWritten
          exact congrArg Literal.positive (Variable.eq_of_index_eq (Int.ofNat.inj same))
      | negative alsoWritten alsoNamed =>
          have same := written.unique alsoWritten
          omega
  | negative written named =>
      cases writesSecond with
      | positive alsoWritten alsoNamed =>
          have same := written.unique alsoWritten
          omega
      | negative alsoWritten alsoNamed =>
          have same := written.unique alsoWritten
          have sameIndex := Int.ofNat.inj (Int.neg_inj.mp same)
          exact congrArg Literal.negative (Variable.eq_of_index_eq sameIndex)

/-- The words of a segment write at most one clause. -/
theorem rightUnique_writesClause : Relator.RightUnique WritesClause := by
  intro segment first second writesFirst writesSecond
  have unique : Relator.RightUnique WritesLiteral := fun _ _ _ => WritesLiteral.unique
  exact congrArg Clause.mk (unique.forall₂ writesFirst writesSecond)

end entry

end Clausal.Dimacs
