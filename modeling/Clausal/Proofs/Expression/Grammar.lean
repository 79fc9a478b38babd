/-
# Texts of the grammar

What the texts that the grammar writes look like: which characters stand in them,
where they can be cut, and that blanks at their ends do not matter. Clauses and
literals are both written as pieces with a separator between them, and a piece
never holds its separator. So a text can be cut into pieces in one way only, and
cutting it at every separator finds that way.
-/

import Clausal.Expression.Grammar
import Clausal.Proofs.Text.Blank
import Clausal.Proofs.Text.Decimal
import Mathlib.Data.List.Forall2

namespace Clausal.Expression

open Text

section separated

variable {α : Type} {separator : Char} {writes : List Char → α → Prop} {text : List Char}
  {as : List α}

/-- Pieces with a separator between them, each of which writes one item. -/
inductive Separated (separator : Char) (writes : List Char → α → Prop) :
    List Char → List α → Prop
  | last {text : List Char} {a : α} (piece : writes text a) : Separated separator writes text [a]
  | next {text rest : List Char} {a : α} {as : List α} (piece : writes text a)
      (others : Separated separator writes rest as) :
      Separated separator writes (text ++ separator :: rest) (a :: as)

theorem separated_intercalate {pieces : List (List Char)} (nonempty : pieces ≠ [])
    (each : List.Forall₂ writes pieces as) :
    Separated separator writes ([separator].intercalate pieces) as := by
  induction each with
  | nil => exact absurd rfl nonempty
  | @cons text a pieces as piece others ih =>
      cases others with
      | nil =>
          rw [List.intercalate_singleton]
          exact .last piece
      | cons second rest =>
          rw [List.intercalate_cons_cons, List.append_assoc]
          exact .next piece (ih (List.cons_ne_nil _ _))

/-- When no piece holds the separator, the pieces are those between separators. -/
theorem separated_iff_forall₂_splitOn (clean : ∀ text a, writes text a → separator ∉ text) :
    Separated separator writes text as ↔ List.Forall₂ writes (text.splitOn separator) as := by
  apply Iff.intro
  · intro separated
    induction separated with
    | last piece =>
        rw [List.splitOn_eq_singleton (clean _ _ piece)]
        exact .cons piece .nil
    | next piece others ih =>
        rw [List.splitOn_append_cons_self_of_not_mem (clean _ _ piece)]
        exact .cons piece ih
  · intro each
    have rejoined : [separator].intercalate (text.splitOn separator) = text :=
      List.intercalate_splitOn separator
    rw [← rejoined]
    exact separated_intercalate (List.splitOn_ne_nil _ _) each

/-- A character at the start that makes no difference to a piece makes none to the
whole. -/
theorem separated_cons_iff {c : Char} (other : c ≠ separator)
    (optional : ∀ text a, writes (c :: text) a ↔ writes text a) :
    Separated separator writes (c :: text) as ↔ Separated separator writes text as := by
  apply Iff.intro
  · intro separated
    generalize whole : c :: text = padded at separated
    cases separated with
    | last piece =>
        subst whole
        exact .last ((optional _ _).mp piece)
    | @next first rest a as piece others =>
        rcases List.cons_eq_append_iff.mp whole with ⟨-, here⟩ | ⟨first, rfl, rfl⟩
        · exact absurd (List.cons.inj here).1.symm other
        · exact .next ((optional _ _).mp piece) others
  · intro separated
    cases separated with
    | last piece => exact .last ((optional _ _).mpr piece)
    | next piece others => exact .next ((optional _ _).mpr piece) others

/-- A character at the end that makes no difference to a piece makes none to the
whole. -/
theorem separated_append_singleton_iff {c : Char} (other : c ≠ separator)
    (optional : ∀ text a, writes (text ++ [c]) a ↔ writes text a) :
    Separated separator writes (text ++ [c]) as ↔ Separated separator writes text as := by
  apply Iff.intro
  · intro separated
    generalize whole : text ++ [c] = padded at separated
    induction separated generalizing text with
    | last piece =>
        subst whole
        exact .last ((optional _ _).mp piece)
    | @next first rest a as piece others ih =>
        rcases List.eq_nil_or_concat rest with rfl | ⟨rest, last, rfl⟩
        · exact absurd (List.append_inj' whole rfl).2 (by simpa using other)
        · rw [List.concat_eq_append, ← List.cons_append, ← List.append_assoc] at whole
          obtain ⟨rfl, ends⟩ := List.append_inj' whole rfl
          obtain rfl : c = last := by simpa using ends
          exact .next piece (ih List.concat_eq_append.symm)
  · intro separated
    induction separated with
    | last piece => exact .last ((optional _ _).mpr piece)
    | next piece others ih =>
        rw [List.append_assoc, List.cons_append]
        exact .next piece ih

/-- What holds of the separator and of all characters of pieces holds of all. -/
theorem Separated.forall_mem {good : Char → Prop} (ofSeparator : good separator)
    (ofPiece : ∀ text a, writes text a → ∀ c ∈ text, good c)
    (separated : Separated separator writes text as) : ∀ c ∈ text, good c := by
  induction separated with
  | last piece => exact ofPiece _ _ piece
  | next piece others ih =>
      exact List.forall_mem_append.mpr
        ⟨ofPiece _ _ piece, List.forall_mem_cons.mpr ⟨ofSeparator, ih⟩⟩

theorem Separated.exists_mem {good : Char → Prop}
    (ofPiece : ∀ text a, writes text a → ∃ c ∈ text, good c)
    (separated : Separated separator writes text as) : ∃ c ∈ text, good c := by
  cases separated with
  | last piece => exact ofPiece _ _ piece
  | next piece others =>
      obtain ⟨c, present, holds⟩ := ofPiece _ _ piece
      exact ⟨c, List.mem_append_left _ present, holds⟩

end separated

/-- The characters that stand in a literal and around it. -/
def literalChar (c : Char) : Bool :=
  c == negation || c.isDigit || isBlank c

section literal

variable {text token before after : List Char} {l : Literal} {v : Variable}

theorem names_iff : Names text v ↔ WritesDigits text v.index ∧ 0 < v.index := by
  apply Iff.intro
  · intro named
    exact ⟨⟨named.nonempty, named.digits, named.value⟩, named.positive⟩
  · intro named
    exact ⟨named.1.nonempty, named.1.digits, named.1.value, named.2⟩

theorem Names.isBlank_eq_false (named : Names text v) : ∀ c ∈ text, isBlank c = false :=
  fun c present => isBlank_eq_false_of_isDigit (named.digits c present)

theorem Names.literalChar (named : Names text v) : ∀ c ∈ text, literalChar c = true := by
  intro c present
  simp [Expression.literalChar, named.digits c present]

theorem Blanks.literalChar (blank : Blanks text) : ∀ c ∈ text, literalChar c = true := by
  intro c present
  simp [Expression.literalChar, blank c present]

namespace WritesLiteral

theorem ne_nil (written : WritesLiteral text l) : text ≠ [] := by
  cases written with
  | positive named => exact named.nonempty
  | negative blank named => exact List.cons_ne_nil _ _

/-- A literal begins with its sign or a digit and ends with a digit. -/
theorem tight (written : WritesLiteral text l) : Tight text := by
  cases written with
  | positive named =>
      exact ⟨fun c first => named.isBlank_eq_false c (List.mem_of_mem_head? first),
        fun c last => named.isBlank_eq_false c (List.mem_of_mem_getLast? last)⟩
  | @negative gap digits v blank named =>
      refine ⟨?_, ?_⟩
      · intro c first
        obtain rfl : negation = c := by simpa using first
        rfl
      · intro c last
        rw [← List.cons_append, List.getLast?_append_of_ne_nil _ named.nonempty] at last
        exact named.isBlank_eq_false c (List.mem_of_mem_getLast? last)

theorem literalChar (written : WritesLiteral text l) : ∀ c ∈ text, literalChar c = true := by
  cases written with
  | positive named => exact named.literalChar
  | negative blank named =>
      refine List.forall_mem_cons.mpr ⟨rfl, ?_⟩
      exact List.forall_mem_append.mpr ⟨blank.literalChar, named.literalChar⟩

end WritesLiteral

/-- A literal with blanks around it, as it stands between two separators. -/
def WritesToken (token : List Char) (l : Literal) : Prop :=
  ∃ before text after, Blanks before ∧ WritesLiteral text l ∧ Blanks after ∧
    token = before ++ text ++ after

namespace WritesToken

theorem literalChar (written : WritesToken token l) : ∀ c ∈ token, literalChar c = true := by
  obtain ⟨before, text, after, blankBefore, literal, blankAfter, rfl⟩ := written
  refine List.forall_mem_append.mpr ⟨?_, blankAfter.literalChar⟩
  exact List.forall_mem_append.mpr ⟨blankBefore.literalChar, literal.literalChar⟩

theorem exists_not_blank (written : WritesToken token l) : ∃ c ∈ token, isBlank c = false := by
  obtain ⟨before, text, after, -, literal, -, rfl⟩ := written
  obtain ⟨first, rest, rfl⟩ := List.exists_cons_of_ne_nil literal.ne_nil
  exact ⟨first, by simp, literal.tight.head first rfl⟩

end WritesToken

theorem writesToken_cons_blank_iff {c : Char} (blank : isBlank c = true) :
    WritesToken (c :: token) l ↔ WritesToken token l := by
  apply Iff.intro
  · intro written
    obtain ⟨before, text, after, blankBefore, literal, blankAfter, whole⟩ := written
    cases before with
    | nil =>
        obtain ⟨first, rest, rfl⟩ := List.exists_cons_of_ne_nil literal.ne_nil
        obtain ⟨rfl, -⟩ := List.cons.inj whole
        exact absurd ((literal.tight.head c rfl).symm.trans blank) Bool.false_ne_true
    | cons first before =>
        obtain ⟨rfl, rfl⟩ := List.cons.inj whole
        exact ⟨before, text, after, (List.forall_mem_cons.mp blankBefore).2, literal,
          blankAfter, rfl⟩
  · intro written
    obtain ⟨before, text, after, blankBefore, literal, blankAfter, rfl⟩ := written
    exact ⟨c :: before, text, after, List.forall_mem_cons.mpr ⟨blank, blankBefore⟩, literal,
      blankAfter, rfl⟩

theorem writesToken_append_blank_iff {c : Char} (blank : isBlank c = true) :
    WritesToken (token ++ [c]) l ↔ WritesToken token l := by
  apply Iff.intro
  · intro written
    obtain ⟨before, text, after, blankBefore, literal, blankAfter, whole⟩ := written
    rcases List.eq_nil_or_concat after with rfl | ⟨after, last, rfl⟩
    · have ends := congrArg List.getLast? whole
      rw [List.append_nil, List.getLast?_append_of_ne_nil _ literal.ne_nil,
        List.getLast?_concat] at ends
      exact absurd ((literal.tight.last c ends.symm).symm.trans blank) Bool.false_ne_true
    · rw [List.concat_eq_append] at blankAfter whole
      rw [← List.append_assoc] at whole
      obtain ⟨rfl, -⟩ := List.append_inj' whole rfl
      exact ⟨before, text, after, blankBefore, literal,
        (List.forall_mem_append.mp blankAfter).1, rfl⟩
  · intro written
    obtain ⟨before, text, after, blankBefore, literal, blankAfter, rfl⟩ := written
    refine ⟨before, text, after ++ [c], blankBefore, literal, ?_, List.append_assoc _ _ _⟩
    exact List.forall_mem_append.mpr ⟨blankAfter, List.forall_mem_singleton.mpr blank⟩

end literal

section literals

variable {text before after : List Char} {ls : List Literal}

theorem writesLiterals_iff_separated :
    WritesLiterals text ls ↔ Separated disjunction WritesToken text ls := by
  apply Iff.intro
  · intro written
    induction written with
    | last blankBefore literal blankAfter =>
        exact .last ⟨_, _, _, blankBefore, literal, blankAfter, rfl⟩
    | next blankBefore literal blankAfter others ih =>
        exact .next ⟨_, _, _, blankBefore, literal, blankAfter, rfl⟩ ih
  · intro separated
    induction separated with
    | last piece =>
        obtain ⟨before, text, after, blankBefore, literal, blankAfter, rfl⟩ := piece
        exact .last blankBefore literal blankAfter
    | next piece others ih =>
        obtain ⟨before, text, after, blankBefore, literal, blankAfter, rfl⟩ := piece
        exact .next blankBefore literal blankAfter ih

/-- Literals are written between the separators of their text. -/
theorem writesLiterals_iff_forall₂_splitOn :
    WritesLiterals text ls ↔ List.Forall₂ WritesToken (text.splitOn disjunction) ls := by
  rw [writesLiterals_iff_separated]
  apply separated_iff_forall₂_splitOn
  intro token l written separatorInside
  exact absurd (written.literalChar disjunction separatorInside) (by decide)

theorem ne_separator_of_isBlank {c : Char} (blank : isBlank c = true) : c ≠ disjunction := by
  rintro rfl
  exact absurd blank (by decide)

/-- Blanks before and after the literals of a clause are of no account. -/
theorem writesLiterals_pad_iff (blankBefore : Blanks before) (blankAfter : Blanks after) :
    WritesLiterals (before ++ text ++ after) ls ↔ WritesLiterals text ls := by
  simp only [writesLiterals_iff_separated]
  induction before with
  | nil =>
      rw [List.nil_append]
      induction after generalizing text with
      | nil => rw [List.append_nil]
      | cons c after ih =>
          obtain ⟨blank, blankRest⟩ := List.forall_mem_cons.mp blankAfter
          rw [List.append_cons, ih blankRest]
          exact separated_append_singleton_iff (ne_separator_of_isBlank blank)
            fun token l => writesToken_append_blank_iff blank
  | cons c before ih =>
      obtain ⟨blank, blankRest⟩ := List.forall_mem_cons.mp blankBefore
      rw [List.cons_append, List.cons_append,
        separated_cons_iff (ne_separator_of_isBlank blank)
          fun token l => writesToken_cons_blank_iff blank,
        ih blankRest]

namespace WritesLiterals

theorem literalChar (written : WritesLiterals text ls) :
    ∀ c ∈ text, c = disjunction ∨ literalChar c = true := by
  have separated := writesLiterals_iff_separated.mp written
  refine separated.forall_mem (Or.inl rfl) ?_
  intro token l tokenWritten c present
  exact Or.inr (tokenWritten.literalChar c present)

theorem exists_not_blank (written : WritesLiterals text ls) : ∃ c ∈ text, isBlank c = false :=
  (writesLiterals_iff_separated.mp written).exists_mem fun _ _ => WritesToken.exists_not_blank

/-- No parenthesis stands between the literals of a clause. -/
theorem no_parenthesis (written : WritesLiterals text ls) :
    ∀ c ∈ text, c ≠ '(' ∧ c ≠ ')' := by
  intro c present
  refine ⟨?_, ?_⟩
  · rintro rfl
    exact absurd (written.literalChar _ present) (by decide)
  · rintro rfl
    exact absurd (written.literalChar _ present) (by decide)

theorem conjunction_not_mem (written : WritesLiterals text ls) : conjunction ∉ text :=
  fun present => absurd (written.literalChar _ present) (by decide)

end WritesLiterals

end literals

section clauses

variable {text : List Char} {c : Clause} {cs : List Clause}

theorem Blanks.conjunction_not_mem (blank : Blanks text) : conjunction ∉ text :=
  fun present => absurd (blank _ present) (by decide)

theorem WritesClause.conjunction_not_mem (written : WritesClause text c) :
    conjunction ∉ text := by
  cases written with
  | bare blankBefore body blankAfter =>
      simp [blankBefore.conjunction_not_mem, body.conjunction_not_mem,
        blankAfter.conjunction_not_mem]
  | enclosed blankBefore body blankAfter =>
      have outside : conjunction ≠ '(' ∧ conjunction ≠ ')' := by decide
      simp [blankBefore.conjunction_not_mem, body.conjunction_not_mem,
        blankAfter.conjunction_not_mem, outside]

theorem WritesClause.exists_not_blank (written : WritesClause text c) :
    ∃ c ∈ text, isBlank c = false := by
  cases written with
  | bare blankBefore body blankAfter =>
      obtain ⟨c, present, visible⟩ := body.exists_not_blank
      exact ⟨c, by simp [present], visible⟩
  | enclosed blankBefore body blankAfter =>
      exact ⟨'(', by simp, by decide⟩

theorem writesClauses_iff_separated :
    WritesClauses text cs ↔ Separated conjunction WritesClause text cs := by
  apply Iff.intro
  · intro written
    induction written with
    | last clause => exact .last clause
    | next clause others ih => exact .next clause ih
  · intro separated
    induction separated with
    | last piece => exact .last piece
    | next piece others ih => exact .next piece ih

/-- Clauses are written between the separators of their text. -/
theorem writesClauses_iff_forall₂_splitOn :
    WritesClauses text cs ↔ List.Forall₂ WritesClause (text.splitOn conjunction) cs := by
  rw [writesClauses_iff_separated]
  exact separated_iff_forall₂_splitOn fun _ _ => WritesClause.conjunction_not_mem

theorem Writes.exists_not_blank {f : Formula} (written : Writes text f) :
    ∃ c ∈ text, isBlank c = false :=
  (writesClauses_iff_separated.mp written).exists_mem fun _ _ => WritesClause.exists_not_blank

end clauses

end Clausal.Expression
