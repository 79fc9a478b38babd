/-
# Lines of texts and of bytes

Where a text is cut into lines, only the newlines matter. What stands before a newline and
what comes after it are cut apart from each other, so the lines of a beginning that ends
with a newline stay what they are whatever follows.

A text may as well be cut when it is encoded: a newline is one byte, and in no other
character does that byte occur. So the lines of the bytes are the lines of the text.
-/

import Clausal.Text.ByteStream
import Mathlib.Data.List.Basic

namespace Clausal

namespace Text

section cut

variable {α : Type} {newline : α} {line first rest : List α}

/-- The text is empty or ends with a newline. -/
def EndsLine (newline : α) (first : List α) : Prop :=
  ∀ last ∈ first.getLast?, last = newline

instance [DecidableEq α] (newline : α) (first : List α) : Decidable (EndsLine newline first) :=
  inferInstanceAs (Decidable (∀ last ∈ first.getLast?, last = newline))

theorem exists_eq_of_endsLine (ends : EndsLine newline first) :
    first = [] ∨ ∃ before, first = before ++ [newline] := by
  rcases List.eq_nil_or_concat first with empty | ⟨before, last, rfl⟩
  · exact Or.inl empty
  · rw [List.concat_eq_append] at ends ⊢
    have isNewline : last = newline := ends last (by simp)
    exact Or.inr ⟨before, by rw [isNewline]⟩

variable [BEq α] [LawfulBEq α]

/-- The pieces of a text of whole lines end with an empty one. -/
theorem splitOn_append_of_endsLine (ends : EndsLine newline first) (rest : List α) :
    (first ++ rest).splitOn newline = completeLinesOf newline first ++ rest.splitOn newline := by
  rcases exists_eq_of_endsLine ends with rfl | ⟨before, rfl⟩
  · rfl
  · rw [completeLinesOf, List.append_assoc, List.singleton_append,
      List.splitOn_append_cons_self, List.splitOn_append_cons_self, List.splitOn_nil,
      List.dropLast_concat]

theorem completeLinesOf_append (ends : EndsLine newline first) (rest : List α) :
    completeLinesOf newline (first ++ rest) =
      completeLinesOf newline first ++ completeLinesOf newline rest := by
  rw [completeLinesOf, splitOn_append_of_endsLine ends,
    List.dropLast_append_of_ne_nil (List.splitOn_ne_nil newline rest)]
  rfl

/-- The lines of a beginning of whole lines come first, whatever follows. -/
theorem linesOf_append (ends : EndsLine newline first) (rest : List α) :
    linesOf newline (first ++ rest) = completeLinesOf newline first ++ linesOf newline rest := by
  have someRest := List.splitOn_ne_nil newline rest
  rw [linesOf, linesOf, splitOn_append_of_endsLine ends, List.getLast?_append_of_ne_nil _ someRest,
    List.dropLast_append_of_ne_nil someRest]
  split <;> rfl

theorem linesOf_eq_completeLinesOf (ends : EndsLine newline first) :
    linesOf newline first = completeLinesOf newline first := by
  have cut := linesOf_append ends []
  rw [List.append_nil] at cut
  exact cut.trans (List.append_nil _)

/-- A text is its whole lines and the beginning of another, which may be empty. -/
theorem exists_eq_append_endsLine (newline : α) (text : List α) :
    ∃ first rest, text = first ++ rest ∧ EndsLine newline first ∧
      completeLinesOf newline text = completeLinesOf newline first := by
  by_cases present : newline ∈ text
  · obtain ⟨after, before, reversed, clean⟩ :=
      List.eq_append_cons_of_mem (List.mem_reverse.mpr present)
    have split : text = (before.reverse ++ [newline]) ++ after.reverse := by
      rw [← List.reverse_inj, reversed]
      simp
    have ends : EndsLine newline (before.reverse ++ [newline]) := by simp [EndsLine]
    have noWholeLine : completeLinesOf newline after.reverse = [] := by
      rw [completeLinesOf, List.splitOn_eq_singleton (by simpa using clean)]
      rfl
    refine ⟨before.reverse ++ [newline], after.reverse, split, ends, ?_⟩
    rw [split, completeLinesOf_append ends, noWholeLine, List.append_nil]
  · refine ⟨[], text, rfl, by simp [EndsLine], ?_⟩
    rw [completeLinesOf, List.splitOn_eq_singleton present]
    rfl

/-- A line that a newline ends is cut off. -/
theorem linesOf_append_cons (clean : newline ∉ line) (rest : List α) :
    linesOf newline (line ++ newline :: rest) = line :: linesOf newline rest := by
  have ends : EndsLine newline (line ++ [newline]) := by simp [EndsLine]
  rw [List.append_cons, linesOf_append ends, completeLinesOf,
    List.splitOn_append_cons_self_of_not_mem clean, List.splitOn_nil]
  rfl

/-- The last line needs no newline. -/
theorem linesOf_of_not_mem (clean : newline ∉ line) (someText : line ≠ []) :
    linesOf newline line = [line] := by
  rw [linesOf, List.splitOn_eq_singleton clean]
  cases line with
  | nil => exact absurd rfl someText
  | cons a line => rfl

end cut

section encode

/-- The bytes of a text. -/
def encode (text : List Char) : List UInt8 :=
  text.flatMap String.utf8EncodeChar

theorem encode_cons (c : Char) (text : List Char) :
    encode (c :: text) = String.utf8EncodeChar c ++ encode text :=
  List.flatMap_cons

@[simp]
theorem decode_encode (text : List Char) : decode (encode text) = .ok (String.ofList text) := by
  have bytes : (encode text).toByteArray = (String.ofList text).toByteArray := rfl
  have valid := (String.ofList text).isValidUTF8
  rw [decode, bytes, String.fromUTF8?, dif_pos valid]
  rfl

theorem encode_eq_nil_iff {text : List Char} : encode text = [] ↔ text = [] := by
  cases text with
  | nil => simp [encode]
  | cons c text => simp [encode_cons, String.utf8EncodeChar_ne_nil]

/-- No byte of a longer character is below 128. -/
theorem newline_mem_utf8EncodeChar_iff {c : Char} :
    ByteStream.newline ∈ String.utf8EncodeChar c ↔ c = '\n' := by
  have isNewline : c = '\n' ↔ c.val.toNat = 10 := by
    rw [← Char.val_inj, ← UInt32.toNat_inj]
    rfl
  have byteIff (n : Nat) : ByteStream.newline = UInt8.ofNat n ↔ n % 256 = 10 := by
    rw [← UInt8.toNat_inj, UInt8.toNat_ofNat']
    exact eq_comm
  simp only [String.utf8EncodeChar, isNewline]
  split
  · rw [List.mem_singleton, byteIff]
    omega
  · -- All bytes of the longer forms are 128 or more.
    refine iff_of_false ?_ (by omega)
    split
    · simp only [List.mem_cons, List.not_mem_nil, byteIff, or_false]
      omega
    · split
      · simp only [List.mem_cons, List.not_mem_nil, byteIff, or_false]
        omega
      · simp only [List.mem_cons, List.not_mem_nil, byteIff, or_false]
        omega

theorem splitOn_append_of_not_mem {bytes : List UInt8} (clean : ByteStream.newline ∉ bytes)
    (rest : List UInt8) :
    (bytes ++ rest).splitOn ByteStream.newline =
      (rest.splitOn ByteStream.newline).modifyHead (bytes ++ ·) := by
  induction bytes with
  | nil =>
      rw [List.nil_append]
      cases rest.splitOn ByteStream.newline <;> rfl
  | cons byte bytes ih =>
      rw [List.mem_cons, not_or] at clean
      have different : ¬ (byte == ByteStream.newline) = true := by simpa using Ne.symm clean.1
      rw [List.cons_append, List.splitOn_cons_eq_if_modifyHead, if_neg different, ih clean.2,
        List.modifyHead_modifyHead]
      rfl

theorem splitOn_encode (text : List Char) :
    (encode text).splitOn ByteStream.newline = (text.splitOn '\n').map encode := by
  induction text with
  | nil => rfl
  | cons c text ih =>
      rw [encode_cons]
      by_cases isNewline : c = '\n'
      · subst isNewline
        have byte : String.utf8EncodeChar '\n' = [] ++ [ByteStream.newline] := by decide
        rw [byte, List.append_assoc, List.singleton_append, List.splitOn_append_cons_self, ih,
          ← List.nil_append ('\n' :: text), List.splitOn_append_cons_self, List.map_append]
        rfl
      · have clean := mt newline_mem_utf8EncodeChar_iff.mp isNewline
        have different : ¬ (c == '\n') = true := by simpa using isNewline
        rw [splitOn_append_of_not_mem clean, ih, List.splitOn_cons_eq_if_modifyHead,
          if_neg different]
        obtain ⟨piece, pieces, split⟩ := List.exists_cons_of_ne_nil (List.splitOn_ne_nil '\n' text)
        rw [split, List.map_cons, List.modifyHead_cons, List.modifyHead_cons, List.map_cons,
          encode_cons]

theorem linesOf_encode (text : List Char) :
    linesOf ByteStream.newline (encode text) = (linesOf '\n' text).map encode := by
  rw [linesOf, linesOf, splitOn_encode, List.getLast?_map]
  cases (text.splitOn '\n').getLast? with
  | none => exact List.map_dropLast.symm
  | some last =>
      cases last with
      | nil => exact List.map_dropLast.symm
      | cons c last =>
          obtain ⟨byte, bytes, coded⟩ :=
            List.exists_cons_of_ne_nil (mt encode_eq_nil_iff.mp (List.cons_ne_nil c last))
          rw [Option.map_some, coded]

end encode

end Text

namespace ByteStream

open Text

/-- The lines of a beginning of whole lines come first, however the stream goes on. -/
theorem lines_append {first : List UInt8} (ends : EndsLine newline first) (rest : ByteStream) :
    lines ⟨first ++ rest.bytes, rest.failure⟩ =
      (completeLinesOf newline first).map decode ++ rest.lines := by
  rcases rest with ⟨bytes, failure⟩
  cases failure with
  | none =>
      show (linesOf newline (first ++ bytes)).map decode = _ ++ (linesOf newline bytes).map decode
      rw [linesOf_append ends, List.map_append]
  | some cause =>
      show (completeLinesOf newline (first ++ bytes)).map decode ++ _ =
        _ ++ ((completeLinesOf newline bytes).map decode ++ _)
      rw [completeLinesOf_append ends, List.map_append, List.append_assoc]

theorem lines_of_endsLine {first : List UInt8} (ends : EndsLine newline first) :
    lines ⟨first, none⟩ = (completeLinesOf newline first).map decode := by
  show (linesOf newline first).map decode = _
  rw [linesOf_eq_completeLinesOf ends]

/-- The lines that are whole after some bytes are lines of the whole stream. -/
theorem whole_lines_prefix (s : ByteStream) (count : Nat) :
    (completeLinesOf newline (s.bytes.take count)).map decode <+: s.lines := by
  obtain ⟨first, others, split, ends, same⟩ :=
    exists_eq_append_endsLine newline (s.bytes.take count)
  have bytes : s.bytes = first ++ (others ++ s.bytes.drop count) := by
    rw [← List.append_assoc, ← split, List.take_append_drop]
  have lines := lines_append ends ⟨others ++ s.bytes.drop count, s.failure⟩
  rw [← bytes] at lines
  rw [same]
  exact ⟨_, lines.symm⟩

/-- The lines of the bytes of a text are those of the text. -/
theorem lines_encode (text : List Char) :
    lines ⟨encode text, none⟩ = (linesOf '\n' text).map fun line => .ok (String.ofList line) := by
  show (linesOf newline (encode text)).map decode = _
  rw [linesOf_encode, List.map_map]
  exact List.map_congr_left fun line _ => decode_encode line

end ByteStream

end Clausal
