/-
# Reading DIMACS files

Lines are read one by one. Up to the header there are only comments; after it,
numbers are collected into clauses, which need not end where their lines end.
Reading stops after the line that completes the declared number of clauses, and
what follows that line is never looked at.
-/

import Clausal.Dimacs.Line

namespace Clausal.Dimacs

/-- What the attempt to read one line yields. -/
abbrev LineRead := Except ReadError String

/-- The clauses completed so far, and the literals of the one that is open. -/
structure Progress where
  closed : Array Clause
  pending : Array Literal
deriving DecidableEq

namespace Progress

def empty : Progress := ⟨#[], #[]⟩

/-- Take in a literal, or the end of a clause. Empty clauses are skipped. -/
def add (progress : Progress) : Option Literal → Progress
  | some l => { progress with pending := progress.pending.push l }
  | none =>
      if progress.pending.isEmpty then progress
      else ⟨progress.closed.push ⟨progress.pending.toList⟩, #[]⟩

/-- Take in the words of a line. The first faulty one decides the error. -/
def addTokens (header : Header) (progress : Progress) (tokens : List (List Char)) :
    Except FormatError Progress :=
  tokens.foldlM (fun progress token => (readEntry header token).map progress.add) progress

/-- The formula of the completed clauses, if none has been left open. -/
def formula (progress : Progress) : Except FormatError Formula :=
  if progress.pending.isEmpty then .ok ⟨progress.closed.toList⟩
  else .error .unterminatedClause

end Progress

/-- Read up to the header, and return what comes after it. -/
def readHeader : List LineRead → Except Error (Header × List LineRead)
  | [] => .error (.format .missingHeader)
  | .error cause :: _ => .error (.read cause)
  | .ok text :: rest =>
      match Line.ofText text.toList with
      | .comment => readHeader rest
      | .numbers _ => .error (.format .missingHeader)
      | .header fields =>
          match Header.ofFields fields with
          | .ok header => .ok (header, rest)
          | .error cause => .error (.format cause)

/-- Read clauses until there are as many as declared, or no more lines. -/
def readClauses (header : Header) (progress : Progress) : List LineRead → Except Error Progress
  | [] => .ok progress
  | .error cause :: _ => .error (.read cause)
  | .ok text :: rest =>
      match Line.ofText text.toList with
      | .comment => readClauses header progress rest
      | .header _ => .error (.format .duplicateHeader)
      | .numbers tokens =>
          match progress.addTokens header tokens with
          | .error cause => .error (.format cause)
          | .ok progress =>
              if header.clauseCount ≤ progress.closed.size then .ok progress
              else readClauses header progress rest

/-- The formula that a sequence of lines writes. -/
def readLines (lines : List LineRead) : Except Error Formula := do
  let (header, rest) ← readHeader lines
  let progress ← readClauses header .empty rest
  progress.formula.mapError .format

/-- The formula in a stream, of which no more is read than needed. -/
def parse (s : ByteStream) : Except Error Formula :=
  readLines s.lines

/-- The formula in a text. -/
def parseText (text : String) : Except Error Formula :=
  readLines ((Text.linesOf '\n' text.toList).map fun line => .ok (String.ofList line))

end Clausal.Dimacs
