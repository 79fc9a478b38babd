/-
# Layout

A line spells out words when they stand on it in order, with blanks between them and any
blanks around them. A text lays out lines when it has them in order, each with a newline at
its end or a carriage return and a newline, and the last of them perhaps with neither.

Both are said by putting texts together. Cutting them gives back what they were put together
from, except that a carriage return stays with its line, where it is one blank more.
-/

import Clausal.Proofs.Text.Words
import Mathlib.Data.List.Forall2

namespace Clausal.Text

section spells

variable {line gap : List Char} {ws : List (List Char)}

/-- The words stand on the line, apart from each other, and with nothing but blanks
besides. -/
inductive Spells : List Char → List (List Char) → Prop
  | blank {gap : List Char} (blanks : ∀ c ∈ gap, isBlank c = true) : Spells gap []
  | word {gap word rest : List Char} {ws : List (List Char)}
      (blanks : ∀ c ∈ gap, isBlank c = true) (isWord : IsWord word)
      (apart : ∀ c ∈ rest.head?, isBlank c = true) (others : Spells rest ws) :
      Spells (gap ++ word ++ rest) (word :: ws)

theorem words_append_of_blank (blanks : ∀ c ∈ gap, isBlank c = true) (line : List Char) :
    words (gap ++ line) = words line := by
  induction gap with
  | nil => rfl
  | cons c gap ih =>
      rw [List.forall_mem_cons] at blanks
      exact (words_append_cons_of_blank blanks.1 [] (gap ++ line)).trans (ih blanks.2)

theorem words_append_of_apart {word rest : List Char} (isWord : IsWord word)
    (apart : ∀ c ∈ rest.head?, isBlank c = true) : words (word ++ rest) = word :: words rest := by
  cases rest with
  | nil =>
      rw [List.append_nil, words_of_isWord isWord]
      rfl
  | cons c rest =>
      have blank : isBlank c = true := apart c rfl
      have skipped : words (c :: rest) = words rest := words_append_cons_of_blank blank [] rest
      rw [words_append_cons_of_blank blank, words_of_isWord isWord, skipped, List.singleton_append]

theorem Spells.words_eq (spells : Spells line ws) : words line = ws := by
  induction spells with
  | @blank gap blanks =>
      rw [← List.append_nil gap, words_append_of_blank blanks]
      rfl
  | word blanks isWord apart _ ih =>
      rw [List.append_assoc, words_append_of_blank blanks, words_append_of_apart isWord apart, ih]

/-- Every line spells out something: its first character is one more blank, goes on with the
first word, or is a word of its own. -/
theorem exists_spells (line : List Char) : ∃ ws, Spells line ws := by
  induction line with
  | nil => exact ⟨[], .blank (by simp)⟩
  | cons c line ih =>
      rcases ih with ⟨ws, spells⟩
      by_cases blank : isBlank c = true
      · cases spells with
        | blank blanks => exact ⟨[], .blank (List.forall_mem_cons.mpr ⟨blank, blanks⟩)⟩
        | word blanks isWord apart others =>
            exact ⟨_, .word (List.forall_mem_cons.mpr ⟨blank, blanks⟩) isWord apart others⟩
      · have solid : isBlank c = false := Bool.not_eq_true _ ▸ blank
        have alone : IsWord [c] := ⟨by simp, by simpa using solid⟩
        have noGap : ∀ c ∈ ([] : List Char), isBlank c = true := by simp
        cases spells with
        | blank blanks =>
            have apart : ∀ c ∈ line.head?, isBlank c = true :=
              fun first isFirst => blanks first (List.mem_of_head? isFirst)
            exact ⟨_, .word noGap alone apart (.blank blanks)⟩
        | @word gap word rest ws blanks isWord apart others =>
            cases gap with
            | nil =>
                have longer : IsWord (c :: word) :=
                  ⟨by simp, List.forall_mem_cons.mpr ⟨solid, isWord.solid⟩⟩
                exact ⟨_, .word noGap longer apart others⟩
            | cons first gap =>
                have blankNext : ∀ c ∈ (first :: gap ++ word ++ rest).head?, isBlank c = true := by
                  simpa using blanks first (by simp)
                exact ⟨_, .word noGap alone blankNext (.word blanks isWord apart others)⟩

/-- Cutting a line gives the words that it spells out, and no others. -/
theorem spells_iff : Spells line ws ↔ words line = ws := by
  apply Iff.intro Spells.words_eq
  intro cut
  rcases exists_spells line with ⟨others, spells⟩
  rw [← cut, spells.words_eq]
  exact spells

theorem forall₂_spells_iff {lines : List (List Char)} {rows : List (List (List Char))} :
    List.Forall₂ Spells lines rows ↔ lines.map words = rows := by
  have asWords : Spells = fun line row => words line = row := by
    funext line row
    exact propext spells_iff
  rw [asWords, ← @List.forall₂_map_left_iff _ _ _ (· = ·) words, List.forall₂_eq_eq_eq]

end spells

section laysOut

/-- The text has these lines, each with its end. Only the last may have none, and then there
is something on it. -/
inductive LaysOut : List Char → List (List Char) → Prop
  | nothing : LaysOut [] []
  | unended {line : List Char} (clean : '\n' ∉ line) (someText : line ≠ []) : LaysOut line [line]
  | newline {line text : List Char} {lines : List (List Char)} (clean : '\n' ∉ line)
      (others : LaysOut text lines) : LaysOut (line ++ '\n' :: text) (line :: lines)
  | carriageReturn {line text : List Char} {lines : List (List Char)} (clean : '\n' ∉ line)
      (others : LaysOut text lines) : LaysOut (line ++ '\r' :: '\n' :: text) (line :: lines)

variable {text : List Char} {lines : List (List Char)}

/-- Whatever ends a line is no word on it. -/
theorem LaysOut.words_eq (laysOut : LaysOut text lines) :
    (linesOf '\n' text).map words = lines.map words := by
  induction laysOut with
  | nothing => rfl
  | unended clean someText => rw [linesOf_of_not_mem clean someText]
  | newline clean _ ih => rw [linesOf_append_cons clean, List.map_cons, List.map_cons, ih]
  | @carriageReturn line text lines clean _ ih =>
      have stillClean : '\n' ∉ line ++ ['\r'] := by simpa using clean
      have oneBlankMore : words (line ++ ['\r']) = words line := by
        rw [words_append_cons_of_blank (by decide)]
        exact List.append_nil _
      rw [List.append_cons, linesOf_append_cons stillClean, List.map_cons, List.map_cons,
        oneBlankMore, ih]

/-- Every text lays out some lines. -/
theorem exists_laysOut (text : List Char) : ∃ lines, LaysOut text lines := by
  induction text with
  | nil => exact ⟨[], .nothing⟩
  | cons c text ih =>
      rcases ih with ⟨lines, laysOut⟩
      by_cases isNewline : c = '\n'
      · subst isNewline
        exact ⟨[] :: lines, @LaysOut.newline [] text lines (by simp) laysOut⟩
      · have clean {line : List Char} (others : '\n' ∉ line) : '\n' ∉ c :: line := by
          simpa [others] using Ne.symm isNewline
        cases laysOut with
        | nothing => exact ⟨_, .unended (clean (by simp)) (by simp)⟩
        | unended others => exact ⟨_, .unended (clean others) (by simp)⟩
        | newline others laysOut => exact ⟨_, .newline (clean others) laysOut⟩
        | carriageReturn others laysOut => exact ⟨_, .carriageReturn (clean others) laysOut⟩

end laysOut

end Clausal.Text
