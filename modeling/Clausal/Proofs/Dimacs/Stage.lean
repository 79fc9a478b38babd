/-
# The reader line by line

Between two lines the reader stands either before the header or behind it, and then with
what it has taken in. One line moves it on, or it stops there with its answer. So what it
makes of a file is what it makes of a beginning of the file, and if it has not stopped by
then, what it makes of the rest from where it stands.
-/

import Clausal.Proofs.Dimacs.Limit

namespace Clausal.Dimacs

/-- Where the reader stands between two lines. -/
inductive Stage where
  /-- Only comments have been read. -/
  | opening
  /-- The header has been read, and what has been taken in since then. -/
  | reading (header : Header) (progress : Progress)

namespace Stage

/-- What the reader makes of the lines that follow. -/
def answer : Stage → List LineRead → Except Error Formula
  | opening, lines => readLines lines
  | reading header progress, lines =>
      (readClauses header progress lines).bind fun final => final.formula.mapError .format

/-- What one line does. The reader goes on to another stage, or it stops with its answer. -/
def next : Stage → LineRead → Except (Except Error Formula) Stage
  | _, .error cause => .error (.error (.read cause))
  | opening, .ok text =>
      match Line.ofText text.toList with
      | .comment => .ok opening
      | .numbers _ => .error (.error (.format .missingHeader))
      | .header fields =>
          match Header.ofFields fields with
          | .ok header => .ok (reading header .empty)
          | .error cause => .error (.error (.format cause))
  | reading header progress, .ok text =>
      match Line.ofText text.toList with
      | .comment => .ok (reading header progress)
      | .header _ => .error (.error (.format .duplicateHeader))
      | .numbers tokens =>
          match progress.addTokens header tokens with
          | .error cause => .error (.error (.format cause))
          | .ok more =>
              if header.clauseCount ≤ more.closed.size then .error (more.formula.mapError .format)
              else .ok (reading header more)

/-- The stage that is reached after some lines, unless the reader stops before. -/
def run (stage : Stage) (lines : List LineRead) : Except (Except Error Formula) Stage :=
  lines.foldlM next stage

variable {stage : Stage} {line : LineRead} {lines rest : List LineRead}

/-- The answer is settled by the next line, or left to the lines after it. -/
theorem answer_cons (stage : Stage) (line : LineRead) (rest : List LineRead) :
    stage.answer (line :: rest) =
      match stage.next line with
      | .error answer => answer
      | .ok later => later.answer rest := by
  cases line with
  | error cause => cases stage <;> rfl
  | ok text =>
      cases stage with
      | opening =>
          rw [answer, next, readLines, readHeader]
          cases Line.ofText text.toList with
          | comment => rfl
          | numbers tokens => rfl
          | header fields =>
              cases accepted : Header.ofFields fields with
              | error cause => simp [accepted, bind, Except.bind]
              | ok header => simp [accepted, bind, Except.bind, answer]
      | reading header progress =>
          rw [answer, next, readClauses]
          cases Line.ofText text.toList with
          | comment => rfl
          | header fields => rfl
          | numbers tokens =>
              cases added : progress.addTokens header tokens with
              | error cause => simp [added, Except.bind]
              | ok more =>
                  by_cases complete : header.clauseCount ≤ more.closed.size
                  · simp [added, complete, Except.bind]
                  · simp [added, complete, answer]

/-- The answer is settled by the first lines, or left to the rest. -/
theorem answer_append (stage : Stage) (lines rest : List LineRead) :
    stage.answer (lines ++ rest) =
      match stage.run lines with
      | .error answer => answer
      | .ok later => later.answer rest := by
  induction lines generalizing stage with
  | nil => rfl
  | cons line lines ih =>
      rw [List.cons_append, answer_cons, run, List.foldlM_cons]
      cases stage.next line with
      | error answer => rfl
      | ok later => exact ih later

end Stage

end Clausal.Dimacs
