/-
# Reading what the grammar writes

The reader works from the outside in: it cuts the text into clauses, takes
parentheses off, cuts into literals, and trims at every step. The grammar builds
from the inside out, with blanks written where they stand. At each of the three
levels both say the same, so the reader accepts the texts of the grammar and no
others, and finds the formula that is written.
-/

import Clausal.Proofs.Expression.Grammar

namespace Clausal.Expression

open Text

/-- A traversal succeeds when each of its steps does. -/
theorem mapM_eq_ok_iff_forall₂ {ε α β : Type} {step : α → Except ε β} {as : List α}
    {bs : List β} :
    as.mapM step = .ok bs ↔ List.Forall₂ (fun a b => step a = .ok b) as bs := by
  induction as generalizing bs with
  | nil =>
      rw [List.forall₂_nil_left_iff]
      exact ⟨fun done => (Except.ok.inj done).symm, fun done => congrArg Except.ok done.symm⟩
  | cons a as ih =>
      rw [List.mapM_cons, List.forall₂_cons_left_iff]
      simp only [← ih]
      cases step a with
      | error cause => simp [bind, Except.bind]
      | ok b =>
          cases as.mapM step with
          | error cause => simp [bind, Except.bind]
          | ok rest => simp [bind, Except.bind, pure, Except.pure, eq_comm]

section literal

variable {text token : List Char} {l : Literal} {v : Variable}

theorem readVariable?_eq_some_iff : readVariable? text = some v ↔ Names text v := by
  rw [readVariable?, Option.bind_eq_some_iff, names_iff]
  simp only [digits?_eq_some_iff]
  apply Iff.intro
  · intro read
    obtain ⟨n, written, named⟩ := read
    by_cases inRange : 0 < n ∧ n < UInt64.size
    · rw [dif_pos inRange, Option.some_inj] at named
      subst named
      exact ⟨written, inRange.1⟩
    · rw [dif_neg inRange] at named
      exact absurd named.symm (Option.some_ne_none v)
  · intro named
    have inRange : 0 < v.index ∧ v.index < UInt64.size := ⟨named.2, v.index_lt⟩
    exact ⟨v.index, named.1, dif_pos inRange⟩

/-- A literal is found between blanks, where one is written. -/
theorem readLiteral?_eq_some_iff : readLiteral? token = some l ↔ WritesToken token l := by
  apply Iff.intro
  · intro read
    obtain ⟨before, after, blankBefore, blankAfter, whole⟩ := exists_eq_append_trim token
    refine ⟨before, trim token, after, blankBefore, ?_, blankAfter, whole⟩
    rw [readLiteral?] at read
    cases trimmed : trim token with
    | nil => simp [trimmed] at read
    | cons first rest =>
        simp only [trimmed] at read
        by_cases negated : first = negation
        · rw [if_pos negated, Option.map_eq_some_iff] at read
          obtain ⟨v, named, rfl⟩ := read
          obtain ⟨gap, blank, split⟩ := exists_eq_append_trimStart rest
          rw [negated, split]
          exact .negative blank (readVariable?_eq_some_iff.mp named)
        · rw [if_neg negated, Option.map_eq_some_iff] at read
          obtain ⟨v, named, rfl⟩ := read
          exact .positive (readVariable?_eq_some_iff.mp named)
  · intro written
    obtain ⟨before, text, after, blankBefore, literal, blankAfter, rfl⟩ := written
    rw [readLiteral?, trim_of_tight blankBefore blankAfter literal.tight]
    cases literal with
    | @positive _ v named =>
        obtain ⟨first, rest, rfl⟩ := List.exists_cons_of_ne_nil named.nonempty
        have unsigned : first ≠ negation := by
          rintro rfl
          exact absurd (named.digits negation List.mem_cons_self) (by decide)
        simp only [if_neg unsigned, readVariable?_eq_some_iff.mpr named, Option.map_some]
    | @negative gap digits v blank named =>
        have uncovered : trimStart (gap ++ digits) = digits := by
          rw [trimStart_append_of_blanks blank]
          exact trimStart_eq_self fun c first =>
            named.isBlank_eq_false c (List.mem_of_mem_head? first)
        simp only [if_true, uncovered, readVariable?_eq_some_iff.mpr named, Option.map_some]

end literal

section clause

variable {clause : Nat} {text body : List Char} {ls : List Literal} {c : Clause}

theorem readLiterals_eq_ok_iff :
    readLiterals clause body = .ok ls ↔ WritesLiterals body ls := by
  rw [readLiterals, mapM_eq_ok_iff_forall₂, writesLiterals_iff_forall₂_splitOn]
  apply iff_of_eq
  apply congrArg fun found => List.Forall₂ found (body.splitOn disjunction) ls
  funext token l
  rw [eq_iff_iff, ← readLiteral?_eq_some_iff]
  cases readLiteral? token <;> simp

theorem unwrap?_enclosed (body : List Char) : unwrap? ('(' :: (body ++ [')'])) = some body := by
  simp [unwrap?]

theorem unwrap?_of_no_parenthesis (bare : ∀ c ∈ text, c ≠ '(' ∧ c ≠ ')') :
    unwrap? text = some text := by
  unfold unwrap?
  split
  case h_1 rest => exact absurd rfl (bare '(' List.mem_cons_self).1
  case h_2 =>
      refine if_neg fun closed => ?_
      exact absurd rfl (bare ')' (List.mem_of_getLast? closed)).2

theorem eq_or_eq_of_unwrap?_eq_some (unwrapped : unwrap? text = some body) :
    text = body ∨ text = '(' :: (body ++ [')']) := by
  unfold unwrap? at unwrapped
  split at unwrapped
  case h_1 rest =>
      obtain ⟨closed, dropped⟩ := Option.ite_none_right_eq_some.mp unwrapped
      obtain rfl := Option.some_inj.mp dropped
      rw [List.dropLast_append_getLast? ')' closed]
      exact Or.inr rfl
  case h_2 =>
      obtain ⟨-, same⟩ := Option.ite_none_left_eq_some.mp unwrapped
      exact Or.inl (Option.some_inj.mp same)

theorem readBody_eq_ok_iff :
    readBody clause text = .ok body ↔
      unwrap? text = some body ∧ (∀ c ∈ body, c ≠ '(' ∧ c ≠ ')') ∧
        ∃ c ∈ body, isBlank c = false := by
  unfold readBody
  cases unwrap? text with
  | none => simp
  | some inner =>
      have unnested : ¬ (inner.any fun c => c == '(' || c == ')') = true ↔
          ∀ c ∈ inner, c ≠ '(' ∧ c ≠ ')' := by simp
      have visible : ¬ inner.all isBlank = true ↔ ∃ c ∈ inner, isBlank c = false := by simp
      rw [Option.some_inj]
      dsimp only
      split
      case isTrue nested =>
          apply iff_of_false (by simp)
          rintro ⟨rfl, bare, -⟩
          exact unnested.mpr bare nested
      case isFalse single =>
          split
          case isTrue blank =>
              apply iff_of_false (by simp)
              rintro ⟨rfl, -, someVisible⟩
              exact visible.mpr someVisible blank
          case isFalse someVisible =>
              rw [Except.ok.injEq]
              apply Iff.intro
              · rintro rfl
                exact ⟨rfl, unnested.mp single, visible.mp someVisible⟩
              · exact And.left

/-- A clause is read where one is written, whatever its number. -/
theorem readClause_eq_ok_iff : readClause clause text = .ok c ↔ WritesClause text c := by
  apply Iff.intro
  · intro read
    obtain ⟨before, after, blankBefore, blankAfter, whole⟩ := exists_eq_append_trim text
    unfold readClause at read
    cases found : readBody clause (trim text) with
    | error cause => simp [found] at read
    | ok body =>
        cases listed : readLiterals clause body with
        | error cause => simp [found, listed, Except.map] at read
        | ok ls =>
            obtain rfl : Clause.mk ls = c := by simpa [found, listed, Except.map] using read
            have written := readLiterals_eq_ok_iff.mp listed
            rw [whole]
            rcases eq_or_eq_of_unwrap?_eq_some (readBody_eq_ok_iff.mp found).1 with bare | enclosed
            · rw [bare]
              exact .bare blankBefore written blankAfter
            · rw [enclosed]
              simpa using WritesClause.enclosed blankBefore written blankAfter
  · intro written
    unfold readClause
    cases written with
    | @bare before body after ls blankBefore written blankAfter =>
        -- The body may have blanks of its own at its ends, which are trimmed as well.
        obtain ⟨outerBefore, outerAfter, blankOuterBefore, blankOuterAfter, whole⟩ :=
          exists_eq_append_trim (before ++ body ++ after)
        have trimmed : WritesLiterals (trim (before ++ body ++ after)) ls := by
          rw [← writesLiterals_pad_iff blankOuterBefore blankOuterAfter, ← whole]
          exact (writesLiterals_pad_iff blankBefore blankAfter).mpr written
        have found : readBody clause (trim (before ++ body ++ after)) =
            .ok (trim (before ++ body ++ after)) :=
          readBody_eq_ok_iff.mpr ⟨unwrap?_of_no_parenthesis trimmed.no_parenthesis,
            trimmed.no_parenthesis, trimmed.exists_not_blank⟩
        simp only [found, readLiterals_eq_ok_iff.mpr trimmed, Except.map]
    | @enclosed before body after ls blankBefore written blankAfter =>
        have tight : Tight ('(' :: (body ++ [')'])) := by
          refine ⟨?_, ?_⟩
          · intro first atHead
            obtain rfl : '(' = first := by simpa using atHead
            decide
          · intro last atEnd
            rw [← List.cons_append, List.getLast?_concat] at atEnd
            obtain rfl := Option.some_inj.mp atEnd
            decide
        have trimmed : trim (before ++ '(' :: (body ++ ')' :: after)) = '(' :: (body ++ [')']) := by
          simpa using trim_of_tight blankBefore blankAfter tight
        have found : readBody clause ('(' :: (body ++ [')'])) = .ok body :=
          readBody_eq_ok_iff.mpr
            ⟨unwrap?_enclosed body, written.no_parenthesis, written.exists_not_blank⟩
        simp only [trimmed, found, readLiterals_eq_ok_iff.mpr written, Except.map]

end clause

section formula

variable {text : List Char} {cs : List Clause} {f : Formula}

theorem readClauses_eq_ok_iff : readClauses text = .ok cs ↔ WritesClauses text cs := by
  rw [readClauses, mapM_eq_ok_iff_forall₂, writesClauses_iff_forall₂_splitOn]
  simp only [readClause_eq_ok_iff]
  rw [← List.forall₂_map_left_iff (R := WritesClause) (f := Prod.fst), List.zipIdx_map_fst]

theorem read_eq_ok_iff : read text = .ok f ↔ Writes text f := by
  rw [read, Writes, ← readClauses_eq_ok_iff]
  by_cases blank : text.all isBlank = true
  · rw [if_pos blank]
    apply iff_of_false
    · simp
    · intro read
      have written : Writes text f := readClauses_eq_ok_iff.mp read
      obtain ⟨c, present, visible⟩ := written.exists_not_blank
      have alsoBlank := List.all_eq_true.mp blank c present
      exact Bool.false_ne_true (visible.symm.trans alsoBlank)
  · rw [if_neg blank]
    obtain ⟨cs⟩ := f
    cases readClauses text <;> simp [Except.map]

end formula

/-- The reader accepts exactly the texts of the grammar, each with the formula that
it writes, and every other text is malformed. -/
theorem parse_accepts_exactly_writes (text : String) :
    (∀ f, parse text = .ok f ↔ Writes text.toList f) ∧
      ((∃ cause, parse text = .error cause) ↔ ¬ ∃ f, Writes text.toList f) := by
  have accepts (f : Formula) : parse text = .ok f ↔ Writes text.toList f := read_eq_ok_iff
  refine ⟨accepts, ?_⟩
  simp only [← accepts]
  cases parse text <;> simp

end Clausal.Expression
