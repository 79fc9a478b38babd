/-
# Reading printed formulas

A formula is printed with every clause in parentheses and without blanks. No number
and no negation sign looks like a separator or a parenthesis, so the reader cuts the
text exactly where the printer has joined it, and finds the literals that were printed.
It refuses only what no expression can say: that there are no clauses, that a clause
is empty, and that a literal has the variable zero.
-/

import Clausal.Expression.Printer
import Clausal.Proofs.Expression.Acceptance
import Clausal.Proofs.Fault

namespace Clausal

open Expression Text

/-- A clause that an expression can write. -/
structure Clause.Expressible (c : Clause) : Prop where
  someLiteral : c.literals ≠ []
  /-- Variables are numbered from one. -/
  named : ∀ l ∈ c.literals, l.var.index ≠ 0

/-- A formula that an expression can write. -/
structure Formula.Expressible (f : Formula) : Prop where
  someClause : f.clauses ≠ []
  clauses : ∀ c ∈ f.clauses, c.Expressible

instance : DecidablePred Clause.Expressible := fun c =>
  decidable_of_iff (c.literals ≠ [] ∧ ∀ l ∈ c.literals, l.var.index ≠ 0)
    ⟨fun parts => ⟨parts.1, parts.2⟩, fun whole => ⟨whole.someLiteral, whole.named⟩⟩

instance : DecidablePred Formula.Expressible := fun f =>
  decidable_of_iff (f.clauses ≠ [] ∧ ∀ c ∈ f.clauses, c.Expressible)
    ⟨fun parts => ⟨parts.1, parts.2⟩, fun whole => ⟨whole.someClause, whole.clauses⟩⟩

/-- What keeps a formula from being written as an expression: that it has no clauses, or else
the first clause that is empty or has a literal of the variable zero, and the first such
literal. -/
inductive Formula.Inexpressible : Formula → Malformed → Prop
  | noClause : Inexpressible ⟨[]⟩ .emptyExpression
  | emptyClause {before after : List Clause} (earlier : ∀ c ∈ before, c.Expressible) :
      Inexpressible ⟨before ++ ⟨[]⟩ :: after⟩ (.emptyClause before.length)
  | positiveZero {before after : List Clause} {first last : List Literal} {zero : Variable}
      (earlier : ∀ c ∈ before, c.Expressible) (named : ∀ l ∈ first, l.var.index ≠ 0)
      (nameless : zero.index = 0) :
      Inexpressible ⟨before ++ ⟨first ++ .positive zero :: last⟩ :: after⟩
        (.invalidLiteral "0" before.length)
  | negativeZero {before after : List Clause} {first last : List Literal} {zero : Variable}
      (earlier : ∀ c ∈ before, c.Expressible) (named : ∀ l ∈ first, l.var.index ≠ 0)
      (nameless : zero.index = 0) :
      Inexpressible ⟨before ++ ⟨first ++ .negative zero :: last⟩ :: after⟩
        (.invalidLiteral "~0" before.length)

namespace Literal

/-- The error for a printed literal, if it cannot be read. -/
def printFault? (clause : Nat) (l : Literal) : Option Malformed :=
  if l.var.index = 0 then some (.invalidLiteral (toString l) clause) else none

theorem printFault?_eq_none_iff {clause : Nat} {l : Literal} :
    l.printFault? clause = none ↔ l.var.index ≠ 0 := by
  by_cases zero : l.var.index = 0 <;> simp [printFault?, zero]

/-- There is one variable zero, and its two literals are written `0` and `~0`. -/
theorem write_of_index_eq_zero {l : Literal} (zero : l.var.index = 0) :
    (l = .positive l.var ∧ l.write = ['0']) ∨ (l = .negative l.var ∧ l.write = ['~', '0']) := by
  rcases l with ⟨sign, ⟨index, index_lt⟩⟩
  have zero : index = 0 := zero
  subst zero
  cases sign with
  | positive => exact Or.inl ⟨rfl, Nat.toDigits_zero 10⟩
  | negative => exact Or.inr ⟨rfl, congrArg (negation :: ·) (Nat.toDigits_zero 10)⟩

/-- A printed literal consists of digits, with a negation sign in front or not. -/
theorem write_eq (l : Literal) : l.write = l.var.write ∨ l.write = negation :: l.var.write := by
  rcases l with ⟨sign, v⟩
  cases sign with
  | positive => exact Or.inl rfl
  | negative => exact Or.inr rfl

theorem eq_negation_or_isDigit_of_mem_write {l : Literal} {c : Char} (present : c ∈ l.write) :
    c = negation ∨ c.isDigit = true := by
  have digits := (writesDigits_toDigits l.var.index).digits
  rcases l.write_eq with bare | negated
  · rw [bare] at present
    exact Or.inr (digits c present)
  · rw [negated] at present
    rcases List.mem_cons.mp present with sign | digit
    · exact Or.inl sign
    · exact Or.inr (digits c digit)

/-- A character that is neither a digit nor the negation sign is in no printed literal. -/
theorem not_mem_write {c : Char} (foreign : c ≠ negation ∧ c.isDigit = false) (l : Literal) :
    c ∉ l.write := by
  intro present
  rcases eq_negation_or_isDigit_of_mem_write present with sign | digit
  · exact foreign.1 sign
  · exact Bool.false_ne_true (foreign.2.symm.trans digit)

theorem isBlank_eq_false_of_mem_write {l : Literal} {c : Char} (present : c ∈ l.write) :
    isBlank c = false := by
  rcases eq_negation_or_isDigit_of_mem_write present with sign | digit
  · subst sign
    decide
  · exact isBlank_eq_false_of_isDigit digit

theorem write_ne_nil (l : Literal) : l.write ≠ [] := by
  rcases l.write_eq with bare | negated
  · rw [bare]
    exact Nat.toDigits_ne_nil
  · rw [negated]
    exact List.cons_ne_nil _ _

/-- There are no blanks around a printed literal, since there are none in it. -/
theorem trim_write (l : Literal) : trim l.write = l.write := by
  apply trim_eq_self
  exact ⟨fun _ first => isBlank_eq_false_of_mem_write (List.mem_of_mem_head? first),
    fun _ last => isBlank_eq_false_of_mem_write (List.mem_of_mem_getLast? last)⟩

end Literal

namespace Expression

/-- A literal is written by the grammar as it is printed, unless its variable is zero. -/
theorem writesLiteral_write {l : Literal} (named : l.var.index ≠ 0) :
    WritesLiteral l.write l := by
  have names : Names l.var.write l.var :=
    names_iff.mpr ⟨writesDigits_toDigits l.var.index, Nat.pos_of_ne_zero named⟩
  have noBlanks : Blanks [] := by simp [Blanks]
  rcases l with ⟨sign, v⟩
  cases sign with
  | positive => exact .positive names
  | negative => exact .negative noBlanks names

theorem readLiteral?_write (l : Literal) :
    readLiteral? l.write = if l.var.index = 0 then none else some l := by
  by_cases zero : l.var.index = 0
  · rw [if_pos zero]
    rcases l.write_of_index_eq_zero zero with ⟨-, written⟩ | ⟨-, written⟩
    · rw [written]
      rfl
    · rw [written]
      rfl
  · rw [if_neg zero]
    apply readLiteral?_eq_some_iff.mpr
    exact ⟨[], l.write, [], by simp [Blanks], writesLiteral_write zero, by simp [Blanks], by simp⟩

/-- Printed literals are read back, unless one of them has the variable zero. -/
theorem readLiterals_intercalate {ls : List Literal} (someLiteral : ls ≠ []) (clause : Nat) :
    readLiterals clause ([disjunction].intercalate (ls.map Literal.write)) =
      okUnless (ls.findSome? fun l => l.printFault? clause) ls := by
  have clean : ∀ text ∈ ls.map Literal.write, disjunction ∉ text := by
    intro text written
    rcases List.mem_map.mp written with ⟨l, -, rfl⟩
    exact l.not_mem_write (by decide)
  rw [readLiterals, List.splitOn_intercalate disjunction clean (by simpa using someLiteral),
    List.mapM_map]
  calc
    _ = ls.mapM fun l => okUnless (l.printFault? clause) l := by
      apply congrArg fun step => List.mapM step ls
      funext l
      dsimp only [Function.comp_apply]
      rw [readLiteral?_write, l.trim_write, Literal.printFault?]
      by_cases zero : l.var.index = 0 <;> simp only [zero, if_true, if_false] <;> rfl
    _ = _ := by rw [mapM_okUnless, List.map_id']

/-- What the printer joins is in pieces, each of them one printed item. -/
theorem separated_intercalate_map {α : Type} {as : List α} (nonempty : as ≠ [])
    (separator : Char) (write : α → List Char) :
    Separated separator (fun text a => text = write a) ([separator].intercalate (as.map write))
      as := by
  apply separated_intercalate (by simpa using nonempty)
  rw [List.forall₂_map_left_iff, List.forall₂_same]
  exact fun _ _ => rfl

/-- Between the parentheses of a printed clause there are only literals and separators. -/
theorem not_mem_intercalate_write {c : Char} (foreign : c ≠ negation ∧ c.isDigit = false)
    (noSeparator : c ≠ disjunction) (ls : List Literal) :
    c ∉ [disjunction].intercalate (ls.map Literal.write) := by
  cases ls with
  | nil => exact List.not_mem_nil
  | cons l ls =>
      have separated :=
        separated_intercalate_map (List.cons_ne_nil l ls) disjunction Literal.write
      have different : ∀ d ∈ [disjunction].intercalate ((l :: ls).map Literal.write), d ≠ c := by
        refine separated.forall_mem noSeparator.symm ?_
        intro text l written d present same
        subst written same
        exact l.not_mem_write foreign present
      intro present
      exact different c present rfl

/-- The parentheses around printed literals are found, and no others. -/
theorem readBody_enclosed {ls : List Literal} (someLiteral : ls ≠ []) (clause : Nat) :
    readBody clause ('(' :: [disjunction].intercalate (ls.map Literal.write) ++ [')']) =
      .ok ([disjunction].intercalate (ls.map Literal.write)) := by
  have separated := separated_intercalate_map someLiteral disjunction Literal.write
  have noOpening : '(' ∉ [disjunction].intercalate (ls.map Literal.write) :=
    not_mem_intercalate_write (by decide) (by decide) ls
  have noClosing : ')' ∉ [disjunction].intercalate (ls.map Literal.write) :=
    not_mem_intercalate_write (by decide) (by decide) ls
  apply readBody_eq_ok_iff.mpr
  refine ⟨unwrap?_enclosed _, ?_, ?_⟩
  · intro c present
    exact ⟨ne_of_mem_of_not_mem present noOpening, ne_of_mem_of_not_mem present noClosing⟩
  · refine separated.exists_mem ?_
    intro text l written
    subst written
    rcases List.exists_mem_of_ne_nil _ l.write_ne_nil with ⟨c, present⟩
    exact ⟨c, present, Literal.isBlank_eq_false_of_mem_write present⟩

end Expression

namespace Clause

/-- The error for a printed clause, if it cannot be read: that it is empty, or that of its first
literal that cannot be read. -/
def printFault? (clause : Nat) (c : Clause) : Option Malformed :=
  if c.literals = [] then some (.emptyClause clause)
  else c.literals.findSome? fun l => l.printFault? clause

theorem printFault?_eq_none_iff {clause : Nat} {c : Clause} :
    c.printFault? clause = none ↔ c.Expressible := by
  unfold printFault?
  by_cases empty : c.literals = []
  · rw [if_pos empty]
    apply iff_of_false (Option.some_ne_none _)
    intro expressible
    exact expressible.someLiteral empty
  · rw [if_neg empty, List.findSome?_eq_none_iff]
    simp only [Literal.printFault?_eq_none_iff]
    exact ⟨fun named => ⟨empty, named⟩, Expressible.named⟩

/-- There are no blanks around a printed clause. -/
theorem trim_write (c : Clause) : trim c.write = c.write := by
  apply trim_eq_self
  apply Tight.mk
  · intro first atHead
    have opening : '(' = first := by simpa [write] using atHead
    subst opening
    decide
  · intro last atEnd
    rw [write, List.getLast?_concat] at atEnd
    have closing : ')' = last := Option.some_inj.mp atEnd
    subst closing
    decide

theorem conjunction_not_mem_write (c : Clause) : conjunction ∉ c.write := by
  intro present
  have inside : conjunction ∈ [disjunction].intercalate (c.literals.map Literal.write) := by
    simpa [write, conjunction] using present
  exact not_mem_intercalate_write (by decide) (by decide) c.literals inside

end Clause

namespace Expression

/-- A printed clause is read back unless it cannot be. -/
theorem readClause_write (clause : Nat) (c : Clause) :
    readClause clause c.write = okUnless (c.printFault? clause) c := by
  rcases c with ⟨ls⟩
  rw [readClause, Clause.trim_write, Clause.printFault?]
  by_cases empty : ls = []
  · subst empty
    rfl
  · rw [if_neg empty, Clause.write]
    dsimp only
    rw [readBody_enclosed empty]
    dsimp only
    rw [readLiterals_intercalate empty, map_okUnless]

end Expression

namespace Formula

/-- The error for a printed formula, if it cannot be read: that it has no clauses, or that of
its first clause that cannot be read. -/
def printFault? (f : Formula) : Option Malformed :=
  if f.clauses = [] then some .emptyExpression
  else f.clauses.zipIdx.findSome? fun numbered => numbered.1.printFault? numbered.2

end Formula

namespace Expression

/-- Printed clauses are read back unless one of them cannot be. -/
theorem readClauses_intercalate {cs : List Clause} (someClause : cs ≠ []) :
    readClauses ([conjunction].intercalate (cs.map Clause.write)) =
      okUnless (cs.zipIdx.findSome? fun numbered => numbered.1.printFault? numbered.2) cs := by
  have clean : ∀ text ∈ cs.map Clause.write, conjunction ∉ text := by
    intro text written
    rcases List.mem_map.mp written with ⟨c, -, rfl⟩
    exact c.conjunction_not_mem_write
  rw [readClauses, List.splitOn_intercalate conjunction clean (by simpa using someClause),
    List.zipIdx_map, List.mapM_map]
  calc
    _ = cs.zipIdx.mapM fun numbered =>
          okUnless (numbered.1.printFault? numbered.2) numbered.1 := by
      apply congrArg fun step => List.mapM step cs.zipIdx
      funext numbered
      exact readClause_write numbered.2 numbered.1
    _ = _ := by rw [mapM_okUnless, List.zipIdx_map_fst]

/-- A printed formula is read back unless it cannot be. -/
theorem read_write (f : Formula) : read f.write = okUnless f.printFault? f := by
  rcases f with ⟨cs⟩
  rw [Formula.printFault?]
  by_cases empty : cs = []
  · subst empty
    rfl
  · have visible : ¬ (Formula.write ⟨cs⟩).all isBlank = true := by
      have separated := separated_intercalate_map empty conjunction Clause.write
      have opening : ∃ c ∈ Formula.write ⟨cs⟩, isBlank c = false := by
        refine separated.exists_mem ?_
        intro text c written
        subst written
        exact ⟨'(', List.mem_cons_self, by decide⟩
      simpa using opening
    rw [if_neg empty, read, if_neg visible, Formula.write, readClauses_intercalate empty,
      map_okUnless]

theorem parse_toString (f : Formula) : parse (toString f) = okUnless f.printFault? f := by
  show read (String.ofList f.write).toList = _
  rw [String.toList_ofList, read_write]

end Expression

namespace Formula

theorem printFault?_eq_none_iff {f : Formula} : f.printFault? = none ↔ f.Expressible := by
  unfold printFault?
  by_cases empty : f.clauses = []
  · rw [if_pos empty]
    apply iff_of_false (Option.some_ne_none _)
    intro expressible
    exact expressible.someClause empty
  · rw [if_neg empty, findSome?_zipIdx_eq_none_iff fun (c : Clause) i => c.printFault? i]
    simp only [Clause.printFault?_eq_none_iff]
    apply Iff.intro
    · intro everyPlace
      apply Expressible.mk empty
      intro c present
      rcases List.mem_iff_getElem?.mp present with ⟨i, place⟩
      exact everyPlace i c place
    · intro expressible i c place
      exact expressible.clauses c (List.mem_of_getElem? place)

/-- The error is that of the first clause that cannot be written, and there of the first
literal. -/
theorem inexpressible_of_printFault?_eq_some {f : Formula} {cause : Malformed}
    (fault : f.printFault? = some cause) : f.Inexpressible cause := by
  rcases f with ⟨cs⟩
  unfold printFault? at fault
  by_cases empty : cs = []
  · rw [if_pos empty, Option.some_inj] at fault
    subst empty fault
    exact .noClause
  · rw [if_neg empty] at fault
    rcases exists_of_findSome?_zipIdx_eq_some (fun (c : Clause) i => c.printFault? i) fault with
      ⟨before, ⟨ls⟩, after, rfl, here, faultless⟩
    have earlier : ∀ c ∈ before, c.Expressible := by
      intro c present
      rcases List.mem_iff_getElem?.mp present with ⟨i, place⟩
      exact Clause.printFault?_eq_none_iff.mp (faultless i c place)
    unfold Clause.printFault? at here
    by_cases noLiteral : ls = []
    · rw [if_pos noLiteral, Option.some_inj] at here
      subst noLiteral here
      exact .emptyClause earlier
    · rw [if_neg noLiteral] at here
      rcases List.findSome?_eq_some_iff.mp here with ⟨first, l, last, rfl, foundZero, readable⟩
      have named : ∀ l ∈ first, l.var.index ≠ 0 := fun l present =>
        Literal.printFault?_eq_none_iff.mp (readable l present)
      rw [Literal.printFault?, Option.ite_none_right_eq_some, Option.some_inj] at foundZero
      rcases foundZero with ⟨zero, rfl⟩
      show Inexpressible _ (.invalidLiteral (String.ofList l.write) before.length)
      rcases l.write_of_index_eq_zero zero with ⟨positive, written⟩ | ⟨negative, written⟩
      · rw [written, positive]
        exact .positiveZero earlier named zero
      · rw [written, negative]
        exact .negativeZero earlier named zero

theorem parse_toString_of_expressible {f : Formula} (expressible : f.Expressible) :
    parse (toString f) = .ok f := by
  rw [parse_toString, printFault?_eq_none_iff.mpr expressible]
  rfl

theorem exists_inexpressible_of_not_expressible {f : Formula} (inexpressible : ¬ f.Expressible) :
    ∃ cause, f.Inexpressible cause ∧ parse (toString f) = .error cause := by
  cases fault : f.printFault? with
  | none => exact False.elim (inexpressible (printFault?_eq_none_iff.mp fault))
  | some cause =>
      have same : parse (toString f) = .error cause := by
        rw [parse_toString, fault]
        rfl
      exact ⟨cause, inexpressible_of_printFault?_eq_some fault, same⟩

end Formula

namespace Expression

theorem WritesLiteral.index_ne_zero {text : List Char} {l : Literal}
    (written : WritesLiteral text l) : l.var.index ≠ 0 := by
  cases written with
  | positive named => exact Nat.ne_of_gt named.positive
  | negative blank named => exact Nat.ne_of_gt named.positive

theorem WritesLiterals.expressible {text : List Char} {ls : List Literal}
    (written : WritesLiterals text ls) : Clause.Expressible ⟨ls⟩ := by
  induction written with
  | last blankBefore literal blankAfter =>
      apply Clause.Expressible.mk (List.cons_ne_nil _ _)
      exact List.forall_mem_singleton.mpr literal.index_ne_zero
  | next blankBefore literal blankAfter others ih =>
      apply Clause.Expressible.mk (List.cons_ne_nil _ _)
      exact List.forall_mem_cons.mpr ⟨literal.index_ne_zero, ih.named⟩

theorem WritesClause.expressible {text : List Char} {c : Clause} (written : WritesClause text c) :
    c.Expressible := by
  cases written with
  | bare blankBefore body blankAfter => exact body.expressible
  | enclosed blankBefore body blankAfter => exact body.expressible

/-- What an expression writes, an expression can write. -/
theorem Writes.expressible {text : List Char} {f : Formula} (written : Writes text f) :
    f.Expressible := by
  rcases f with ⟨cs⟩
  have clauses : WritesClauses text cs := written
  induction clauses with
  | last clause =>
      apply Formula.Expressible.mk (List.cons_ne_nil _ _)
      exact List.forall_mem_singleton.mpr clause.expressible
  | next clause others ih =>
      apply Formula.Expressible.mk (List.cons_ne_nil _ _)
      exact List.forall_mem_cons.mpr ⟨clause.expressible, (ih others).clauses⟩

end Expression

end Clausal
