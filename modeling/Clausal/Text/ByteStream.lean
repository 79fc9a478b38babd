/-
# Streams of bytes

The bytes that can be read from a source before it ends or fails. What a source
yields does not depend on how many bytes are asked for at a time, so a stream
is just the list of its bytes, with the failure that comes after them, if any.

A line is read only as a whole. When a stream fails within a line, that line is
lost and the failure stands in its place.
-/

namespace Clausal

/-- Why a source cannot be read, or not to its end. -/
inductive ReadError where
  /-- The bytes are no UTF-8. -/
  | notUtf8
  /-- There is no file of that name. -/
  | missing
  | isDirectory
  /-- A file is taken for a directory. -/
  | notDirectory
  | nameTooLong
  | nulInName
  /-- Any other failure, in the words of the source. -/
  | other (reason : String)
deriving DecidableEq

namespace ReadError

def reason : ReadError → String
  | notUtf8 => "stream did not contain valid UTF-8"
  | missing => "No such file or directory (os error 2)"
  | isDirectory => "Is a directory (os error 21)"
  | notDirectory => "Not a directory (os error 20)"
  | nameTooLong => "File name too long (os error 36)"
  | nulInName => "file name contained an unexpected NUL byte"
  | other reason => reason

def message (e : ReadError) : String :=
  "i/o error: " ++ e.reason

end ReadError

namespace Text

/-- The text that bytes encode. -/
def decode (bytes : List UInt8) : Except ReadError String :=
  match String.fromUTF8? bytes.toByteArray with
  | some text => .ok text
  | none => .error .notUtf8

/-- The lines of a text, without the newlines that end them. The last line
needs no newline, but it is a line only if it is not empty. -/
def linesOf {α : Type} [BEq α] (newline : α) (text : List α) : List (List α) :=
  let pieces := text.splitOn newline
  match pieces.getLast? with
  | some (_ :: _) => pieces
  | _ => pieces.dropLast

/-- The lines of a text that are ended by a newline. -/
def completeLinesOf {α : Type} [BEq α] (newline : α) (text : List α) : List (List α) :=
  (text.splitOn newline).dropLast

end Text

/-- The bytes that come from a source, and how it ends. -/
structure ByteStream where
  bytes : List UInt8
  /-- The failure after the last byte, or nothing if the source ends there. -/
  failure : Option ReadError := none
deriving DecidableEq

namespace ByteStream

/-- The source whose reading fails at once. -/
def failed (cause : ReadError) : ByteStream := ⟨[], some cause⟩

/-- The stream that delivers the first bytes only and then fails. -/
def failAfter (s : ByteStream) (count : Nat) (cause : ReadError) : ByteStream :=
  ⟨s.bytes.take count, some cause⟩

/-- All of a stream as one text. A failure comes before the question whether
the bytes are a text. -/
def contents (s : ByteStream) : Except ReadError String :=
  match s.failure with
  | some cause => .error cause
  | none => Text.decode s.bytes

/-- The byte that ends a line. -/
def newline : UInt8 := 0x0A

/-- What the successive attempts to read a line yield. -/
def lines (s : ByteStream) : List (Except ReadError String) :=
  match s.failure with
  | some cause => (Text.completeLinesOf newline s.bytes).map Text.decode ++ [.error cause]
  | none => (Text.linesOf newline s.bytes).map Text.decode

end ByteStream

end Clausal
