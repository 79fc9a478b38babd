/-
# Why there are no reports

A text without reports is malformed, or it is a formula that holds a complementary pair
where these are refused. Nothing else can go wrong: a text is cut into lines that are texts,
so there is nothing to fail when they are read, and the columns of a formula are its own
variables in order.

A stream is first read to its end. So a failure of it, or bytes that are no text, come
before anything else, even behind the line where the reader of its format would stop.
-/

import Clausal.Proofs.Dimacs.Stage
import Clausal.Proofs.Format

namespace Clausal

open Text

namespace Text

theorem toByteArray_inj {first second : List UInt8}
    (same : first.toByteArray = second.toByteArray) : first = second := by
  simpa using congrArg (fun bytes => bytes.data.toList) same

/-- Bytes are read as a text when they are the bytes of that text. -/
theorem decode_eq_ok_iff {bytes : List UInt8} {text : String} :
    decode bytes = .ok text ↔ bytes = encode text.toList := by
  apply Iff.intro
  · intro decoded
    have encoded : (encode text.toList).toByteArray = text.toByteArray :=
      congrArg String.toByteArray (String.ofList_toList (s := text))
    rw [decode, String.fromUTF8?] at decoded
    by_cases valid : bytes.toByteArray.IsValidUTF8
    · rw [dif_pos valid] at decoded
      have same : bytes.toByteArray = text.toByteArray :=
        congrArg String.toByteArray (Except.ok.inj decoded)
      exact toByteArray_inj (same.trans encoded.symm)
    · rw [dif_neg valid] at decoded
      cases decoded
  · intro encoded
    rw [encoded, decode_encode, String.ofList_toList]

theorem decode_eq_error_iff {bytes : List UInt8} {cause : ReadError} :
    decode bytes = .error cause ↔
      cause = .notUtf8 ∧ ¬ ∃ text : String, bytes = encode text.toList := by
  simp only [← decode_eq_ok_iff, decode]
  cases String.fromUTF8? bytes.toByteArray with
  | some text => simp
  | none => simp [eq_comm]

end Text

namespace Dimacs.Stage

variable {stage : Stage} {line : LineRead} {lines : List LineRead} {cause : ReadError}

theorem mapError_format_ne_read_error {α : Type} (result : Except FormatError α) :
    result.mapError Error.format ≠ .error (.read cause) := by
  intro failed
  cases result <;> cases failed

/-- Only a line that is no text is a failure of reading. -/
theorem eq_error_of_next_eq_read_error (failed : stage.next line = .error (.error (.read cause))) :
    line = .error cause := by
  unfold next at failed
  split at failed
  case h_1 => simpa using failed
  case h_2 text =>
      split at failed
      · cases failed
      · cases failed
      · split at failed <;> cases failed
  case h_3 header progress text =>
      split at failed
      · cases failed
      · cases failed
      · split at failed
        · cases failed
        · split at failed
          · exact absurd (Except.error.inj failed) (mapError_format_ne_read_error _)
          · cases failed

theorem answer_nil_ne_read_error : stage.answer [] ≠ .error (.read cause) := by
  cases stage with
  | opening => exact nofun
  | reading header progress => exact mapError_format_ne_read_error progress.formula

theorem mem_of_answer_eq_read_error (failed : stage.answer lines = .error (.read cause)) :
    .error cause ∈ lines := by
  induction lines generalizing stage with
  | nil => exact absurd failed answer_nil_ne_read_error
  | cons line lines ih =>
      rw [answer_cons] at failed
      cases moved : stage.next line with
      | error answer =>
          rw [moved] at failed
          dsimp only at failed
          rw [failed] at moved
          rw [eq_error_of_next_eq_read_error moved]
          exact List.mem_cons_self
      | ok stage =>
          rw [moved] at failed
          exact List.mem_cons_of_mem line (ih failed)

end Dimacs.Stage

namespace Dimacs

/-- The lines of a text are texts. -/
theorem parse_encode (text : String) : parse ⟨encode text.toList, none⟩ = parseText text := by
  rw [parse, ByteStream.lines_encode]
  rfl

theorem parseText_ne_read_error (text : String) (cause : ReadError) :
    parseText text ≠ .error (.read cause) := by
  intro failed
  have readLine := @Stage.mem_of_answer_eq_read_error .opening _ cause failed
  simp at readLine

end Dimacs

namespace ByteStream

variable {s : ByteStream} {text : String} {cause : ReadError}

theorem contents_eq_ok_iff :
    s.contents = .ok text ↔ s.failure = none ∧ s.bytes = encode text.toList := by
  rw [contents]
  cases s.failure with
  | none => simp [decode_eq_ok_iff]
  | some own => simp

theorem contents_eq_error_iff :
    s.contents = .error cause ↔
      s.failure = some cause ∨ s.failure = none ∧ cause = .notUtf8 ∧
        ¬ ∃ text : String, s.bytes = encode text.toList := by
  rw [contents]
  cases s.failure with
  | none => simp [decode_eq_error_iff]
  | some own => simp

end ByteStream

theorem InputFormat.parse_eq_error_iff {format : InputFormat} {text : String} {cause : SolveError} :
    format.parse text = .error cause ↔
      (format = .expression ∧ ∃ own, Expression.parse text = .error own ∧
        cause = .formula (.malformed own)) ∨
      (format = .dimacs ∧ ∃ own, Dimacs.parseText text = .error own ∧ cause = .dimacs own) := by
  cases format with
  | expression =>
      cases read : Expression.parse text <;>
        simp [InputFormat.parse, read, Except.mapError, eq_comm]
  | dimacs =>
      cases read : Dimacs.parseText text <;>
        simp [InputFormat.parse, read, Except.mapError, eq_comm]

namespace Settings

variable {settings : Settings} {name text : String} {f : Formula} {cause : SolveError}

theorem solve_of_parse_eq_error (unread : settings.format.parse text = .error cause)
    (name : String) :
    settings.solve name text = .error cause := by
  rw [solve, matrixOf, unread]
  rfl

/-- A formula has no reports when it holds a complementary pair and these are refused. -/
theorem exists_solve_eq_error_iff (read : settings.format.parse text = .ok f) (name : String) :
    (∃ cause, settings.solve name text = .error cause) ↔
      settings.tautologies = .reject ∧
        ∃ c ∈ f.clauses, ∃ v, .positive v ∈ c.literals ∧ .negative v ∈ c.literals := by
  have faultless : f.fault? f.vars settings.tautologies = none ↔
      ¬ (settings.tautologies = .reject ∧
        ∃ c ∈ f.clauses, ∃ v, .positive v ∈ c.literals ∧ .negative v ∈ c.literals) := by
    rw [Formula.fault?_vars_eq_none_iff]
    simp only [← Clause.isTautological_iff_both]
    simp
  rw [settings.solve_eq_okUnless read]
  simp only [okUnless_eq_error_iff]
  cases faulty : f.fault? f.vars settings.tautologies with
  | none => simpa using faultless.mp faulty
  | some own => simpa [faulty] using faultless

/-- A formula has columns for all its variables, and they are in order. So what it fails with
is a complementary pair. -/
theorem exists_both_of_solve_eq_error (read : settings.format.parse text = .ok f)
    (failed : settings.solve name text = .error cause) :
    ∃ clause c v, f.clauses[clause]? = some c ∧ .positive v ∈ c.literals ∧
      .negative v ∈ c.literals ∧ cause = .formula (.inconsistentClause clause v) := by
  rw [settings.solve_eq_okUnless read, okUnless_eq_error_iff, Option.map_eq_some_iff] at failed
  obtain ⟨own, faulty, rfl⟩ := failed
  obtain ⟨clause, c, v, place, positive, negative, rfl⟩ :=
    Formula.exists_both_of_fault?_eq_some f.var_mem_vars faulty
  exact ⟨clause, c, v, place, positive, negative, rfl⟩

/-- Any error other than for a complementary pair is one of reading. -/
theorem solve_eq_error_iff_parse
    (noPair : ∀ clause v, cause ≠ .formula (.inconsistentClause clause v)) :
    settings.solve name text = .error cause ↔ settings.format.parse text = .error cause := by
  apply Iff.intro
  · intro failed
    cases read : settings.format.parse text with
    | error own =>
        rw [solve_of_parse_eq_error read] at failed
        rw [Except.error.inj failed]
    | ok f =>
        obtain ⟨clause, _, v, -, -, -, pair⟩ := exists_both_of_solve_eq_error read failed
        exact absurd pair (noPair clause v)
  · intro unread
    exact solve_of_parse_eq_error unread name

theorem solve_eq_malformed_iff {own : Malformed} :
    settings.solve name text = .error (.formula (.malformed own)) ↔
      settings.format = .expression ∧ Expression.parse text = .error own := by
  rw [solve_eq_error_iff_parse (by simp), InputFormat.parse_eq_error_iff]
  simp

theorem solve_eq_dimacs_iff {own : Dimacs.Error} :
    settings.solve name text = .error (.dimacs own) ↔
      settings.format = .dimacs ∧ Dimacs.parse ⟨encode text.toList, none⟩ = .error own := by
  rw [solve_eq_error_iff_parse (by simp), InputFormat.parse_eq_error_iff, Dimacs.parse_encode]
  simp

theorem solve_ne_read_error (settings : Settings) (name text : String) (own : ReadError) :
    settings.solve name text ≠ .error (.read own) := by
  rw [Ne, solve_eq_error_iff_parse (by simp), InputFormat.parse_eq_error_iff]
  simp

theorem solve_ne_dimacs_read_error (settings : Settings) (name text : String) (own : ReadError) :
    settings.solve name text ≠ .error (.dimacs (.read own)) := by
  rw [Ne, solve_eq_dimacs_iff, Dimacs.parse_encode]
  exact fun failed => Dimacs.parseText_ne_read_error text own failed.2

/-- A stream is solved as the text that it holds, if it holds one. -/
theorem solveStream_eq (settings : Settings) (name : String) (s : ByteStream) :
    settings.solveStream name s =
      match s.contents with
      | .error cause => .error (.read cause)
      | .ok text => settings.solve name text := by
  rw [solveStream]
  cases s.contents <;> rfl

theorem solveStream_eq_read_error_iff {s : ByteStream} {own : ReadError} :
    settings.solveStream name s = .error (.read own) ↔ s.contents = .error own := by
  rw [solveStream_eq]
  cases s.contents with
  | error cause => simp
  | ok text => simp [solve_ne_read_error]

/-- A text fails because it is malformed in its format, and then with what its reader says, or
because its formula holds a complementary pair where these are refused. It never fails to be
read, neither as a whole nor line by line, and never because of the columns of its formula. A
stream fails to be read when it breaks off or its bytes are no text, also where the reader of
its format would not come to that place, and otherwise it is solved as the text it holds. -/
theorem solve_error_kinds_exact (settings : Settings) (name : String) :
    (∀ text,
      (∀ own, settings.solve name text ≠ .error (.read own)) ∧
      (∀ own, settings.solve name text ≠ .error (.dimacs (.read own))) ∧
      (∀ own, settings.solve name text = .error (.formula (.malformed own)) ↔
        settings.format = .expression ∧ Expression.parse text = .error own) ∧
      (∀ own, settings.solve name text = .error (.dimacs own) ↔
        settings.format = .dimacs ∧ Dimacs.parse ⟨encode text.toList, none⟩ = .error own) ∧
      ∀ f, settings.format.parse text = .ok f →
        ((∃ cause, settings.solve name text = .error cause) ↔
          settings.tautologies = .reject ∧
            ∃ c ∈ f.clauses, ∃ v, .positive v ∈ c.literals ∧ .negative v ∈ c.literals) ∧
        ∀ cause, settings.solve name text = .error cause →
          ∃ clause c v, f.clauses[clause]? = some c ∧ .positive v ∈ c.literals ∧
            .negative v ∈ c.literals ∧ cause = .formula (.inconsistentClause clause v)) ∧
    ∀ s : ByteStream,
      (∀ own, settings.solveStream name s = .error (.read own) ↔
        s.failure = some own ∨ s.failure = none ∧ own = .notUtf8 ∧
          ¬ ∃ text : String, s.bytes = encode text.toList) ∧
      ∀ text : String, s.failure = none → s.bytes = encode text.toList →
        settings.solveStream name s = settings.solve name text := by
  apply And.intro
  · intro text
    refine ⟨settings.solve_ne_read_error name text, settings.solve_ne_dimacs_read_error name text,
      fun own => solve_eq_malformed_iff, fun own => solve_eq_dimacs_iff, fun f read => ?_⟩
    exact ⟨exists_solve_eq_error_iff read name,
      fun cause failed => exists_both_of_solve_eq_error read failed⟩
  · intro s
    apply And.intro
    · intro own
      rw [solveStream_eq_read_error_iff, ByteStream.contents_eq_error_iff]
    · intro text unbroken bytes
      have contents : s.contents = .ok text := ByteStream.contents_eq_ok_iff.mpr ⟨unbroken, bytes⟩
      rw [solveStream_eq, contents]

/-- The byte that is no text comes after the last line that the reader of files looks at. -/
theorem solve_error_kinds_exact_unread_byte :
    let settings : Settings := ⟨.both, .dimacs, .reject⟩
    let one : Variable := { index := 1 }
    let f : Formula := ⟨[⟨[.positive one, .negative one]⟩]⟩
    let text := "p cnf 1 1\n1 -1 0\n"
    let s : ByteStream := ⟨encode text.toList ++ [0xFF], none⟩
    Dimacs.parse s = .ok f ∧ settings.solveStream "t" s = .error (.read .notUtf8) ∧
      settings.format.parse text = .ok f ∧
        ∃ clause v, settings.solve "t" text = .error (.formula (.inconsistentClause clause v)) := by
  intro settings one f text s
  have stops : Dimacs.parse s = .ok f := by decide +kernel
  have noText : decode s.bytes = .error .notUtf8 := by decide +kernel
  have read : settings.format.parse text = .ok f := by decide +kernel
  have kinds := solve_error_kinds_exact settings "t"
  have pair := (kinds.1 text).2.2.2.2 f read
  have holdsPair : ∃ c ∈ f.clauses, ∃ v, .positive v ∈ c.literals ∧ .negative v ∈ c.literals :=
    ⟨_, List.mem_singleton_self _, one, by decide, by decide⟩
  obtain ⟨cause, failed⟩ := pair.1.mpr ⟨rfl, holdsPair⟩
  obtain ⟨clause, c, v, -, -, -, rfl⟩ := pair.2 cause failed
  exact ⟨stops, ((kinds.2 s).1 .notUtf8).mpr (Or.inr ⟨rfl, decode_eq_error_iff.mp noText⟩), read,
    clause, v, failed⟩

end Settings

end Clausal
