/-
# Clauses across lines

Numbers are taken in one by one, and a clause may go on over any number of lines. What
has been taken in is determined by the words until then: the closed clauses are the
segments between their zeros, empty ones apart, and the literals that are pending are
those after the last zero. This holds at the start, and every number keeps it.
-/

import Clausal.Proofs.Dimacs.Line

namespace Clausal.Dimacs

open Text

section segments

variable {α : Type} {p : α → Bool} {numbers : List (List Char)} {word : List Char}

/-- An element at the end that separates nothing belongs to the last piece. -/
theorem exists_splitOnP_append_singleton {a : α} (kept : p a = false) (as : List α) :
    ∃ done last, as.splitOnP p = done ++ [last] ∧
      (as ++ [a]).splitOnP p = done ++ [last ++ [a]] := by
  induction as with
  | nil => exact ⟨[], [], by simp, by simp [List.splitOnP_cons_eq_if_modifyHead, kept]⟩
  | cons first rest ih =>
      obtain ⟨done, last, before, after⟩ := ih
      rw [List.cons_append]
      simp only [List.splitOnP_cons_eq_if_modifyHead, before, after]
      by_cases separates : p first = true
      · exact ⟨[] :: done, last, by simp [separates], by simp [separates]⟩
      · cases done with
        | nil => exact ⟨[], first :: last, by simp [separates], by simp [separates]⟩
        | cons head done =>
            exact ⟨(first :: head) :: done, last, by simp [separates], by simp [separates]⟩

@[simp]
theorem segments_nil : segments [] = [[]] :=
  List.splitOnP_nil

/-- A zero ends the segment before it, and another begins. -/
theorem segments_append_zero (zero : WritesInteger word 0) :
    segments (numbers ++ [word]) = segments numbers ++ [[]] := by
  have separates : decide (WritesInteger word 0) = true := decide_eq_true zero
  rw [segments, List.splitOnP_append_cons numbers [] separates, List.splitOnP_nil, segments]

theorem exists_segments_append (numbers : List (List Char)) (nonzero : ¬ WritesInteger word 0) :
    ∃ done last, segments numbers = done ++ [last] ∧
      segments (numbers ++ [word]) = done ++ [last ++ [word]] :=
  exists_splitOnP_append_singleton (p := fun word => WritesInteger word 0)
    (decide_eq_false nonzero) numbers

/-- The last segment is empty when the last word is a zero, or there is no word. -/
theorem last_eq_nil_iff {done : List (List (List Char))} {last : List (List Char)}
    (split : segments numbers = done ++ [last]) :
    last = [] ↔ ∀ word ∈ numbers.getLast?, WritesInteger word 0 := by
  rcases List.eq_nil_or_concat numbers with rfl | ⟨before, word, rfl⟩
  · have split : [] ++ [[]] = done ++ [last] := split
    have ends := (List.append_inj' split rfl).2
    simpa using ends.symm
  · rw [List.concat_eq_append] at split ⊢
    by_cases zero : WritesInteger word 0
    · rw [segments_append_zero zero] at split
      have ends := (List.append_inj' split rfl).2
      simpa [zero] using ends.symm
    · obtain ⟨others, current, -, after⟩ := exists_segments_append before zero
      rw [after] at split
      have ends := (List.append_inj' split rfl).2
      obtain rfl : current ++ [word] = last := by simpa using ends
      simp [zero]

end segments

namespace Progress

variable {header : Header} {progress final : Progress} {numbers tokens : List (List Char)}
  {word : List Char} {entry : Option Literal}

/-- What has been taken in is what the words write: closed clauses, and the literals of
the clause that is still open. -/
def Records (progress : Progress) (numbers : List (List Char)) : Prop :=
  ∃ done last, segments numbers = done ++ [last] ∧
    List.Forall₂ WritesClause (done.filter fun segment => !segment.isEmpty)
      progress.closed.toList ∧
    List.Forall₂ WritesLiteral last progress.pending.toList

theorem records_empty : empty.Records [] :=
  ⟨[], [], segments_nil, .nil, .nil⟩

/-- One number more is taken in. -/
theorem Records.add (records : progress.Records numbers) (written : WritesEntry word entry) :
    (progress.add entry).Records (numbers ++ [word]) := by
  obtain ⟨done, last, split, closed, pending⟩ := records
  cases entry with
  | none =>
      refine ⟨segments numbers, [], segments_append_zero written, ?_⟩
      rw [split, List.filter_append, Progress.add]
      by_cases nonePending : progress.pending.toList = []
      -- The segment that this zero ends is empty, so no clause is missing when none is closed.
      · rw [nonePending, List.forall₂_nil_right_iff] at pending
        subst pending
        rw [if_pos (by simpa using nonePending), nonePending]
        exact ⟨by simpa using closed, .nil⟩
      · have someLast : last ≠ [] := by
          rintro rfl
          exact nonePending (List.forall₂_nil_left_iff.mp pending)
        rw [if_neg (by simpa using nonePending), Array.toList_push]
        refine ⟨List.rel_append closed ?_, .nil⟩
        rw [List.filter_cons_of_pos (by simpa using someLast)]
        exact .cons pending .nil
  | some l =>
      obtain ⟨others, current, before, after⟩ :=
        exists_segments_append numbers written.not_writes_zero
      obtain ⟨rfl, ends⟩ := List.append_inj' (split.symm.trans before) rfl
      obtain rfl : last = current := by simpa using ends
      refine ⟨done, last ++ [word], after, closed, ?_⟩
      rw [Progress.add, Array.toList_push]
      exact List.rel_append pending (.cons written .nil)

theorem addTokens_cons :
    progress.addTokens header (word :: tokens) =
      (readEntry header word).bind fun entry => (progress.add entry).addTokens header tokens := by
  unfold addTokens
  rw [List.foldlM_cons]
  cases readEntry header word <;> rfl

theorem addTokens_append (xs ys : List (List Char)) :
    progress.addTokens header (xs ++ ys) =
      (progress.addTokens header xs).bind fun next => next.addTokens header ys :=
  List.foldlM_append

/-- All the words of a line are taken in. -/
theorem Records.addTokens (records : progress.Records numbers)
    (added : progress.addTokens header tokens = .ok final) :
    final.Records (numbers ++ tokens) := by
  induction tokens generalizing progress numbers with
  | nil =>
      obtain rfl : progress = final := Except.ok.inj added
      simpa using records
  | cons word tokens ih =>
      rw [addTokens_cons] at added
      cases read : readEntry header word with
      | error cause =>
          rw [read] at added
          cases added
      | ok entry =>
          rw [read] at added
          have next := ih (records.add (writesEntry_of_readEntry_eq_ok read)) added
          simpa using next

/-- Words are taken in unless one of them is out of bounds. -/
theorem exists_addTokens_eq_ok_iff (progress : Progress) :
    (∃ final, progress.addTokens header tokens = .ok final) ↔
      ∀ word ∈ tokens, Bounded header.variableCount word := by
  induction tokens generalizing progress with
  | nil => exact iff_of_true ⟨progress, rfl⟩ (by simp)
  | cons word tokens ih =>
      rw [List.forall_mem_cons, ← exists_readEntry_eq_ok_iff, addTokens_cons]
      cases read : readEntry header word with
      | error cause => simp [Except.bind]
      | ok entry =>
          have accepted : ∃ next, (.ok entry : Except FormatError (Option Literal)) = .ok next :=
            ⟨entry, rfl⟩
          exact (ih (progress.add entry)).trans (and_iff_right accepted).symm

/-- There are as many closed clauses as closed segments. -/
theorem Records.size_closed (records : progress.Records numbers) :
    progress.closed.size = (closedSegments numbers).length := by
  obtain ⟨done, last, split, closed, -⟩ := records
  rw [closedSegments, split, List.dropLast_concat, closed.length_eq, Array.length_toList]

/-- At the end, the formula is what the words write, unless its last clause is open. -/
theorem Records.formula_eq_ok_iff {f : Formula} (records : progress.Records numbers) :
    progress.formula = .ok f ↔
      (∀ word ∈ numbers.getLast?, WritesInteger word 0) ∧
        List.Forall₂ WritesClause ((segments numbers).filter fun segment => !segment.isEmpty)
          f.clauses := by
  obtain ⟨done, last, split, closed, pending⟩ := records
  rw [← last_eq_nil_iff split, split, List.filter_append, formula]
  by_cases nonePending : progress.pending.toList = []
  · rw [nonePending, List.forall₂_nil_right_iff] at pending
    subst pending
    rw [if_pos (by simpa using nonePending), List.filter_singleton, List.isEmpty_nil]
    apply Iff.intro
    · intro same
      obtain rfl := Except.ok.inj same
      exact ⟨rfl, by simpa using closed⟩
    · rintro ⟨-, written⟩
      have sameClauses : progress.closed.toList = f.clauses :=
        rightUnique_writesClause.forall₂ closed (by simpa using written)
      rw [sameClauses]
  · rw [if_neg (by simpa using nonePending)]
    apply iff_of_false (by simp)
    rintro ⟨rfl, -⟩
    exact nonePending (List.forall₂_nil_left_iff.mp pending)

/-- The reader ends with a formula exactly if the words write it. -/
theorem exists_formula_eq_ok_iff {f : Formula} :
    (∃ final, empty.addTokens header numbers = .ok final ∧ final.formula = .ok f) ↔
      WritesNumbers header.variableCount numbers f := by
  apply Iff.intro
  · rintro ⟨final, added, same⟩
    obtain ⟨closed, clauses⟩ := (records_empty.addTokens added).formula_eq_ok_iff.mp same
    exact ⟨(exists_addTokens_eq_ok_iff empty).mp ⟨final, added⟩, closed, clauses⟩
  · intro writes
    obtain ⟨final, added⟩ := (exists_addTokens_eq_ok_iff empty).mpr writes.bounded
    exact ⟨final, added, (records_empty.addTokens added).formula_eq_ok_iff.mpr
      ⟨writes.closed, writes.clauses⟩⟩

end Progress

end Clausal.Dimacs
