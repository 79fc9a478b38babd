/-
# Blanks between tokens

A blank may be put into an expression, or taken out of it, at every place that is not
between two digits: the text is accepted or refused as before, and if it is accepted
the formula is the same.

The grammar is made of a few forms: runs of blanks, numbers with blanks around them, and
two texts with a sign between them. A blank is of no account in the first two, and in
the third it belongs to one text or the other, since it is never the sign. So it is of no
account in literals, clauses and formulas, whose texts are all of these forms.
-/

import Clausal.Proofs.Expression.Acceptance
import Mathlib.Data.List.Induction

namespace Clausal.Expression

open Text

/-- The place where a text is cut lies within a run of digits. -/
def BetweenDigits (before after : List Char) : Prop :=
  (∃ c ∈ before.getLast?, c.isDigit = true) ∧ ∃ c ∈ after.head?, c.isDigit = true

instance (before after : List Char) : Decidable (BetweenDigits before after) :=
  decidable_of_iff
    (before.getLast?.any Char.isDigit = true ∧ after.head?.any Char.isDigit = true)
    (by simp only [BetweenDigits, Option.any_eq_true, Option.mem_def])

/-- Blanks make no difference to what is said of a text, wherever they stand outside of
numbers. -/
structure IgnoresBlanks (holds : List Char → Prop) : Prop where
  insert_iff : ∀ {before after : List Char} {c : Char}, isBlank c = true →
    ¬ BetweenDigits before after →
      (holds (before ++ [c] ++ after) ↔ holds (before ++ [] ++ after))

/-- Two texts with a sign between them. -/
def Divided (sign : Char) (first second : List Char → Prop) (text : List Char) : Prop :=
  ∃ left right, first left ∧ second right ∧ text = left ++ sign :: right

section betweenDigits

variable {before after : List Char}

theorem BetweenDigits.append_right (between : BetweenDigits before after) (rest : List Char) :
    BetweenDigits before (after ++ rest) := by
  obtain ⟨left, c, first, digit⟩ := between
  exact ⟨left, c, by simp [Option.mem_def.mp first], digit⟩

theorem BetweenDigits.append_left (between : BetweenDigits before after) (rest : List Char) :
    BetweenDigits (rest ++ before) after := by
  obtain ⟨⟨c, last, digit⟩, right⟩ := between
  exact ⟨⟨c, by simp [Option.mem_def.mp last], digit⟩, right⟩

end betweenDigits

section divided

variable {sign : Char} {first second : List Char → Prop} {before middle after : List Char}

/-- Where a text has a part without the sign in it, the sign stands after that part or
before it. -/
theorem divided_append_iff (clean : sign ∉ middle) :
    Divided sign first second (before ++ middle ++ after) ↔
      (∃ left right, after = left ++ sign :: right ∧ first (before ++ middle ++ left) ∧
        second right) ∨
      ∃ left right, before = left ++ sign :: right ∧ first left ∧
        second (right ++ middle ++ after) := by
  apply Iff.intro
  · rintro ⟨left, right, writesLeft, writesRight, whole⟩
    rcases List.append_eq_append_iff.mp whole with ⟨inner, rfl, ending⟩ | ⟨inner, start, ending⟩
    · exact Or.inl ⟨inner, right, ending, writesLeft, writesRight⟩
    · rcases List.cons_eq_append_iff.mp ending with ⟨rfl, rfl⟩ | ⟨inner, rfl, rfl⟩
      · rw [List.append_nil] at start
        subst start
        exact Or.inl ⟨[], right, rfl, by simpa using writesLeft, writesRight⟩
      · have notInMiddle : ∀ start, middle ≠ start ++ sign :: inner := by
          rintro start rfl
          exact clean (by simp)
        rcases List.append_eq_append_iff.mp start with ⟨rest, rfl, inMiddle⟩ | ⟨rest, rfl, tail⟩
        · exact absurd inMiddle (notInMiddle rest)
        · rcases List.cons_eq_append_iff.mp tail with ⟨-, inMiddle⟩ | ⟨rest, rfl, rfl⟩
          · exact absurd inMiddle (notInMiddle [])
          · exact Or.inr ⟨left, rest, rfl, writesLeft, writesRight⟩
  · rintro (⟨left, right, rfl, writesLeft, writesRight⟩ |
      ⟨left, right, rfl, writesLeft, writesRight⟩)
    · exact ⟨_, right, writesLeft, writesRight, by simp⟩
    · exact ⟨left, _, writesLeft, writesRight, by simp⟩

end divided

namespace IgnoresBlanks

variable {first second : List Char → Prop}

theorem of_iff (ignores : IgnoresBlanks first) (same : ∀ text, second text ↔ first text) :
    IgnoresBlanks second := by
  apply IgnoresBlanks.mk
  intro before after c blank outside
  rw [same, same, ignores.insert_iff blank outside]

theorem blanks : IgnoresBlanks Blanks := by
  apply IgnoresBlanks.mk
  intro before after c blank outside
  simp [Blanks, or_imp, forall_and, blank]

theorem or (ignoresFirst : IgnoresBlanks first) (ignoresSecond : IgnoresBlanks second) :
    IgnoresBlanks fun text => first text ∨ second text :=
  ⟨fun blank outside =>
    or_congr (ignoresFirst.insert_iff blank outside) (ignoresSecond.insert_iff blank outside)⟩

/-- A blank stands on one side of the sign. -/
theorem divided {sign : Char} (visible : isBlank sign = false) (ignoresFirst : IgnoresBlanks first)
    (ignoresSecond : IgnoresBlanks second) : IgnoresBlanks (Divided sign first second) := by
  apply IgnoresBlanks.mk
  intro before after c blank outside
  have notSign : sign ∉ [c] := by
    intro here
    rw [List.mem_singleton.mp here, blank] at visible
    exact absurd visible (by decide)
  rw [divided_append_iff notSign, divided_append_iff List.not_mem_nil]
  apply or_congr
  · apply exists_congr
    intro left
    apply exists_congr
    intro right
    apply and_congr_right
    intro split
    have outsideLeft : ¬ BetweenDigits before left := fun between =>
      outside (split ▸ between.append_right (sign :: right))
    rw [ignoresFirst.insert_iff blank outsideLeft]
  · apply exists_congr
    intro left
    apply exists_congr
    intro right
    apply and_congr_right
    intro split
    have outsideRight : ¬ BetweenDigits right after := fun between =>
      outside (by simpa [split] using between.append_left (left ++ [sign]))
    rw [ignoresSecond.insert_iff blank outsideRight]

end IgnoresBlanks

section separated

variable {α : Type} {separator : Char} {writes : List Char → α → Prop} {text : List Char} {a : α}
  {as : List α}

theorem not_separated_nil : ¬ Separated separator writes text [] := by
  intro separated
  cases separated

theorem separated_iff_divided :
    Separated separator writes text (a :: as) ↔
      (as = [] ∧ writes text a) ∨
        Divided separator (writes · a) (Separated separator writes · as) text := by
  apply Iff.intro
  · intro separated
    cases separated with
    | last piece => exact Or.inl ⟨rfl, piece⟩
    | next piece others => exact Or.inr ⟨_, _, piece, others, rfl⟩
  · rintro (⟨rfl, piece⟩ | ⟨left, right, piece, others, rfl⟩)
    · exact .last piece
    · exact .next piece others

theorem IgnoresBlanks.separated (visible : isBlank separator = false)
    (each : ∀ a, IgnoresBlanks (writes · a)) (as : List α) :
    IgnoresBlanks (Separated separator writes · as) := by
  induction as with
  | nil => exact ⟨fun _ _ => iff_of_false not_separated_nil not_separated_nil⟩
  | cons a as ih =>
      have alone : IgnoresBlanks fun text => as = [] ∧ writes text a :=
        ⟨fun blank outside => and_congr_right fun _ => (each a).insert_iff blank outside⟩
      exact (alone.or (IgnoresBlanks.divided visible (each a) ih)).of_iff fun _ =>
        separated_iff_divided

end separated

section literal

variable {before token after : List Char} {c : Char} {l : Literal} {v : Variable}

/-- Between visible ends, a positive literal is nothing but digits. -/
theorem isDigit_of_tight (written : WritesToken token (.positive v)) (tight : Tight token) :
    ∀ c ∈ token, c.isDigit = true := by
  obtain ⟨before, text, after, blankBefore, literal, blankAfter, whole⟩ := written
  have inner := trim_of_tight blankBefore blankAfter literal.tight
  rw [← whole, trim_eq_self tight] at inner
  rw [inner]
  cases literal with
  | positive named => exact named.digits

/-- Between visible ends and at a place that is not between digits, there is no positive literal
with or without the blank. -/
theorem not_writesToken_of_visible_ends {first last : Char} (visibleFirst : ¬ isBlank first = true)
    (visibleLast : ¬ isBlank last = true)
    (outside : ¬ BetweenDigits (first :: before) (after ++ [last])) (middle : List Char) :
    ¬ WritesToken (first :: before ++ middle ++ (after ++ [last])) (.positive v) := by
  intro written
  have tight : Tight (first :: before ++ middle ++ (after ++ [last])) := by
    apply Tight.mk
    · simpa using visibleFirst
    · rw [← List.append_assoc, List.getLast?_concat]
      simpa using visibleLast
  have digits := isDigit_of_tight written tight
  simp only [List.forall_mem_append] at digits
  apply outside
  apply And.intro
  · exact ⟨_, List.getLast?_eq_some_getLast (List.cons_ne_nil first before),
      digits.1.1 _ (List.getLast_mem _)⟩
  · exact ⟨_, List.head?_eq_some_head (List.append_ne_nil_of_right_ne_nil after (by simp)),
      List.forall_mem_append.mpr digits.2 _ (List.head_mem _)⟩

theorem writesToken_insert_iff_of_visible {first : Char} (visible : ¬ isBlank first = true)
    (blank : isBlank c = true) (outside : ¬ BetweenDigits (first :: before) after) :
    WritesToken (first :: before ++ [c] ++ after) (.positive v) ↔
      WritesToken (first :: before ++ [] ++ after) (.positive v) := by
  induction after using List.reverseRecOn with
  | nil =>
      rw [List.append_nil, List.append_nil, List.append_nil]
      exact writesToken_append_blank_iff blank
  | append_singleton after last ih =>
      by_cases blankLast : isBlank last = true
      · rw [← List.append_assoc, ← List.append_assoc, writesToken_append_blank_iff blankLast,
          writesToken_append_blank_iff blankLast]
        exact ih fun between => outside (between.append_right [last])
      · apply iff_of_false
        · exact not_writesToken_of_visible_ends visible blankLast outside [c]
        · exact not_writesToken_of_visible_ends visible blankLast outside []

theorem ignoresBlanks_positive (v : Variable) : IgnoresBlanks (WritesToken · (.positive v)) := by
  apply IgnoresBlanks.mk
  intro before after c blank outside
  induction before with
  | nil => exact writesToken_cons_blank_iff blank
  | cons first before ih =>
      by_cases blankFirst : isBlank first = true
      · simp only [List.cons_append, writesToken_cons_blank_iff blankFirst]
        exact ih fun between => outside (between.append_left [first])
      · exact writesToken_insert_iff_of_visible blankFirst blank outside

theorem writesToken_negative_iff :
    WritesToken token (.negative v) ↔
      Divided negation Blanks (WritesToken · (.positive v)) token := by
  apply Iff.intro
  · rintro ⟨before, text, after, blankBefore, literal, blankAfter, rfl⟩
    cases literal with
    | @negative gap digits v blankGap named =>
        exact ⟨before, gap ++ digits ++ after, blankBefore,
          ⟨gap, digits, after, blankGap, .positive named, blankAfter, rfl⟩, by simp⟩
  · rintro ⟨left, right, blankLeft, ⟨gap, digits, after, blankGap, literal, blankAfter, rfl⟩, rfl⟩
    cases literal with
    | positive named =>
        exact ⟨left, negation :: (gap ++ digits), after, blankLeft, .negative blankGap named,
          blankAfter, by simp⟩

theorem ignoresBlanks_literal (l : Literal) : IgnoresBlanks (WritesToken · l) := by
  cases l with
  | mk sign v =>
      cases sign with
      | positive => exact ignoresBlanks_positive v
      | negative =>
          have visible : isBlank negation = false := by decide
          exact (IgnoresBlanks.divided visible .blanks (ignoresBlanks_positive v)).of_iff
            fun _ => writesToken_negative_iff

end literal

section formula

variable {text : List Char} {c : Clause}

theorem ignoresBlanks_literals (ls : List Literal) : IgnoresBlanks (WritesLiterals · ls) := by
  have visible : isBlank disjunction = false := by decide
  exact (IgnoresBlanks.separated visible ignoresBlanks_literal ls).of_iff
    fun _ => writesLiterals_iff_separated

/-- The blanks around a bare clause are also blanks around its literals. -/
theorem writesClause_iff :
    WritesClause text c ↔
      WritesLiterals text c.literals ∨
        Divided '(' Blanks (Divided ')' (WritesLiterals · c.literals) Blanks) text := by
  apply Iff.intro
  · intro written
    cases written with
    | bare blankBefore body blankAfter =>
        exact Or.inl ((writesLiterals_pad_iff blankBefore blankAfter).mpr body)
    | enclosed blankBefore body blankAfter =>
        exact Or.inr ⟨_, _, blankBefore, ⟨_, _, body, blankAfter, rfl⟩, rfl⟩
  · have noBlanks : Blanks [] := by simp [Blanks]
    rintro (body | ⟨before, _, blankBefore, ⟨body, after, written, blankAfter, rfl⟩, rfl⟩)
    · simpa using WritesClause.bare noBlanks body noBlanks
    · exact .enclosed blankBefore written blankAfter

theorem ignoresBlanks_clause (c : Clause) : IgnoresBlanks (WritesClause · c) := by
  have body := ignoresBlanks_literals c.literals
  have visibleOpening : isBlank '(' = false := by decide
  have visibleClosing : isBlank ')' = false := by decide
  have enclosed := IgnoresBlanks.divided visibleOpening .blanks
    (IgnoresBlanks.divided visibleClosing body .blanks)
  exact (body.or enclosed).of_iff fun _ => writesClause_iff

theorem ignoresBlanks_formula (f : Formula) : IgnoresBlanks (Writes · f) := by
  have visible : isBlank conjunction = false := by decide
  exact (IgnoresBlanks.separated visible ignoresBlanks_clause f.clauses).of_iff
    fun _ => writesClauses_iff_separated

end formula

/-- A blank makes no difference at any place that is not between two digits: with it and
without it the text is malformed, or it writes the same formula. -/
theorem parse_ignores_blank {before after : String} {c : Char} (blank : isBlank c = true)
    (outside : ¬ BetweenDigits before.toList after.toList) :
    (∃ f, parse (before ++ after) = .ok f ∧ parse (before.push c ++ after) = .ok f) ∨
      ((∃ cause, parse (before ++ after) = .error cause) ∧
        ∃ cause, parse (before.push c ++ after) = .error cause) := by
  have same (f : Formula) :
      parse (before.push c ++ after) = .ok f ↔ parse (before ++ after) = .ok f := by
    have inserted := (ignoresBlanks_formula f).insert_iff blank outside
    simpa [parse, read_eq_ok_iff] using inserted
  cases without : parse (before ++ after) with
  | ok f => exact Or.inl ⟨f, rfl, (same f).mpr without⟩
  | error cause =>
      refine Or.inr ⟨⟨cause, rfl⟩, ?_⟩
      cases inserted : parse (before.push c ++ after) with
      | error other => exact ⟨other, rfl⟩
      | ok f => exact absurd ((same f).mp inserted) (by simp [without])

/-- A no-break space after a negation sign. -/
theorem parse_ignores_blank_after_negation :
    let one : Variable := { index := 1 }
    let twentyThree : Variable := { index := 23 }
    let f : Formula := ⟨[⟨[.positive one, .negative twentyThree]⟩, ⟨[.positive one]⟩]⟩
    isBlank '\u00a0' = true ∧ ¬ BetweenDigits "(1 V~".toList "23)^1".toList ∧
      parse ("(1 V~" ++ "23)^1") = .ok f ∧ parse ("(1 V~".push '\u00a0' ++ "23)^1") = .ok f := by
  intro one twentyThree f
  have blank : isBlank '\u00a0' = true := by decide
  have outside : ¬ BetweenDigits "(1 V~".toList "23)^1".toList := by decide
  have read : parse ("(1 V~" ++ "23)^1") = .ok f := by decide +kernel
  refine ⟨blank, outside, read, ?_⟩
  rcases parse_ignores_blank blank outside with ⟨g, without, inserted⟩ | ⟨⟨cause, refused⟩, -⟩
  · rw [inserted, ← without, read]
  · exact absurd (read.symm.trans refused) (by simp)

end Clausal.Expression
