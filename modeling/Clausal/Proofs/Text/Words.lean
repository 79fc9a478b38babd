/-
# Words and lines

Where a text is put together from words with blanks between them, or from lines with
a newline after each, cutting it gives the words or lines back. Nothing is required
but that the pieces are free of what separates them, and that no word is empty.
-/

import Clausal.Proofs.Text.Blank
import Clausal.Proofs.Text.Decimal
import Clausal.Proofs.Text.Lines

namespace Clausal.Text

section words

variable {word : List Char}

/-- The text is one word. -/
structure IsWord (word : List Char) : Prop where
  nonempty : word ≠ []
  solid : ∀ c ∈ word, isBlank c = false

instance : DecidablePred IsWord := fun word =>
  decidable_of_iff ((!word.isEmpty && word.all fun c => !isBlank c) = true)
    (by
      simp only [Bool.and_eq_true, Bool.not_eq_true', List.isEmpty_eq_false_iff, List.all_eq_true]
      exact ⟨fun parts => ⟨parts.1, parts.2⟩, fun whole => ⟨whole.nonempty, whole.solid⟩⟩)

theorem words_of_isWord (isWord : IsWord word) : words word = [word] := by
  rw [words, List.splitOnP_eq_singleton isWord.solid]
  exact List.filter_eq_self.mpr (by simpa using isWord.nonempty)

/-- No word goes on over a blank. -/
theorem words_append_cons_of_blank {c : Char} (blank : isBlank c = true)
    (before after : List Char) : words (before ++ c :: after) = words before ++ words after := by
  rw [words, List.splitOnP_append_cons before after blank, List.filter_append, words, words]

theorem words_append_space (isWord : IsWord word) (rest : List Char) :
    words (word ++ ' ' :: rest) = word :: words rest := by
  rw [words_append_cons_of_blank (by decide), words_of_isWord isWord, List.singleton_append]

/-- Words with one space between them, the last of them apart. -/
def spaced (ws : List (List Char)) (last : List Char) : List Char :=
  ws.flatMap (fun word => word ++ [' ']) ++ last

section spaced

variable {ws : List (List Char)} {last : List Char}

theorem words_spaced (areWords : ∀ word ∈ ws, IsWord word) (isWord : IsWord last) :
    words (spaced ws last) = ws ++ [last] := by
  induction ws with
  | nil => exact words_of_isWord isWord
  | cons word ws ih =>
      rw [List.forall_mem_cons] at areWords
      have next : spaced (word :: ws) last = word ++ ' ' :: spaced ws last := by simp [spaced]
      rw [next, words_append_space areWords.1, ih areWords.2, List.cons_append]

/-- The words stay on one line. -/
theorem newline_not_mem_spaced (areWords : ∀ word ∈ ws, IsWord word) (isWord : IsWord last) :
    '\n' ∉ spaced ws last := by
  have solid (word : List Char) (isWord : IsWord word) : '\n' ∉ word := by
    intro present
    exact Bool.false_ne_true ((isWord.solid _ present).symm.trans (by decide))
  intro present
  rcases List.mem_append.mp present with inside | atEnd
  · rcases List.mem_flatMap.mp inside with ⟨word, listed, here⟩
    rcases List.mem_append.mp here with inWord | space
    · exact solid word (areWords word listed) inWord
    · exact absurd space (by decide)
  · exact solid last isWord atEnd

end spaced

theorem isWord_toDigits (n : Nat) : IsWord (Nat.toDigits 10 n) := by
  have written := writesDigits_toDigits n
  exact ⟨written.nonempty, fun c present => isBlank_eq_false_of_isDigit (written.digits c present)⟩

end words

section lines

variable {α : Type} [BEq α] [LawfulBEq α] {newline : α} {lines : List (List α)}

/-- Lines that are all ended by a newline. -/
theorem linesOf_flatMap_newline (clean : ∀ line ∈ lines, newline ∉ line) :
    linesOf newline (lines.flatMap fun line => line ++ [newline]) = lines := by
  induction lines with
  | nil => rfl
  | cons line lines ih =>
      rw [List.forall_mem_cons] at clean
      rw [List.flatMap_cons, List.append_assoc, List.singleton_append, linesOf_append_cons clean.1,
        ih clean.2]

end lines

end Clausal.Text
