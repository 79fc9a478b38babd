/-
# What a run leaves behind

The results of a run are looked at one after the other, and what each does to the exit
status depends on those before it: an unsatisfiable problem changes the status of a success
only, an error every status. What all of them come to can nevertheless be said without their
order. The loop has, after any number of results, the outcome of all reports and all errors
so far, and of these the status asks only whether there are any of a kind.

The procedures take their time, which no result is a function of. So what is said of a run
is said for all times that its reports can have been given.
-/

import Clausal.Outcome
import Clausal.Proofs.Failure
import Clausal.Proofs.Report
import Mathlib.Data.List.Perm.Basic

namespace Clausal

section Answer

variable {α : Type}

/-- What there is where nothing failed. -/
def answersOf : Except SolveError (List α) → List α
  | .ok answers => answers
  | .error _ => []

def failureOf? : Except SolveError α → Option SolveError
  | .ok _ => none
  | .error cause => some cause

theorem mem_flatMap_answersOf_iff {results : List (Except SolveError (List α))} {a : α} :
    a ∈ results.flatMap answersOf ↔ ∃ answers, .ok answers ∈ results ∧ a ∈ answers := by
  rw [List.mem_flatMap]
  apply Iff.intro
  · intro found
    obtain ⟨result, inResults, inAnswers⟩ := found
    cases result with
    | ok answers => exact ⟨answers, inResults, inAnswers⟩
    | error cause => cases inAnswers
  · intro found
    obtain ⟨answers, inResults, inAnswers⟩ := found
    exact ⟨.ok answers, inResults, inAnswers⟩

theorem exists_mem_flatMap_answersOf_iff {results : List (Except SolveError (List α))}
    {holds : α → Prop} :
    (∃ a ∈ results.flatMap answersOf, holds a) ↔
      ∃ answers, .ok answers ∈ results ∧ ∃ a ∈ answers, holds a := by
  simp only [mem_flatMap_answersOf_iff]
  grind

theorem forall_mem_flatMap_answersOf_iff {results : List (Except SolveError (List α))}
    {holds : α → Prop} :
    (∀ a ∈ results.flatMap answersOf, holds a) ↔
      ∀ answers, .ok answers ∈ results → ∀ a ∈ answers, holds a := by
  simp only [mem_flatMap_answersOf_iff]
  grind

theorem filterMap_failureOf?_eq_nil_iff {results : List (Except SolveError α)} :
    results.filterMap failureOf? = [] ↔ ∀ cause, .error cause ∉ results := by
  rw [List.filterMap_eq_nil_iff]
  apply Iff.intro
  · intro faultless cause inResults
    cases faultless (.error cause) inResults
  · intro faultless result inResults
    cases result with
    | ok answer => rfl
    | error cause => exact absurd inResults (faultless cause)

end Answer

/-- A result as it would be at any other time. -/
def InputResult.withoutTimes (result : InputResult) : Except SolveError (List Report) :=
  result.map (List.map Prod.fst)

namespace InputResult

theorem map_flatMap_answersOf (results : List InputResult) :
    (results.flatMap answersOf).map Prod.fst = (results.map withoutTimes).flatMap answersOf := by
  rw [List.map_flatMap, List.flatMap_map]
  refine List.flatMap_congr fun result _ => ?_
  cases result <;> rfl

theorem filterMap_failureOf? (results : List InputResult) :
    results.filterMap failureOf? = (results.map withoutTimes).filterMap failureOf? := by
  rw [List.filterMap_map]
  refine List.filterMap_congr fun result _ => ?_
  cases result <;> rfl

end InputResult

namespace Outcome

/-- The line of a report, as it is printed. -/
def reportLine : Report × Elapsed → String
  | (report, elapsed) => report.line elapsed ++ "\n"

/-- The line of an error, as it is printed. -/
def errorLine (cause : SolveError) : String :=
  "error: " ++ cause.message ++ "\n"

/-- The outcome of all reports and all errors of a run. -/
def summary (reports : List (Report × Elapsed)) (failures : List SolveError) : Outcome where
  exitStatus :=
    if failures ≠ [] then 255
    else if anyUnsatisfiable reports then 1
    else 0
  output := String.join (reports.map reportLine)
  errors := String.join (failures.map errorLine)

theorem foldl_printReport (reports : List (Report × Elapsed)) (outcome : Outcome) :
    reports.foldl printReport outcome =
      { outcome with output := outcome.output ++ String.join (reports.map reportLine) } := by
  induction reports generalizing outcome with
  | nil => simp
  | cons report reports ih =>
      rw [List.foldl_cons, ih]
      simp [printReport, reportLine, String.join_cons, String.append_assoc]

variable {reports answers : List (Report × Elapsed)} {failures : List SolveError}

/-- Reports go behind those before them. They change the status if it is that of a success,
that is if nothing has failed and nothing has been unsatisfiable so far. -/
theorem add_ok_summary :
    (summary reports failures).add (.ok answers) = summary (reports ++ answers) failures := by
  have unsatisfiable : anyUnsatisfiable (reports ++ answers) =
      (anyUnsatisfiable reports || anyUnsatisfiable answers) := List.any_append
  simp only [add, foldl_printReport, summary, unsatisfiable, List.map_append, String.join_append]
  by_cases failed : failures = []
  · cases anyUnsatisfiable reports <;> cases anyUnsatisfiable answers <;> simp [failed]
  · simp [failed]

theorem add_error_summary {cause : SolveError} :
    (summary reports failures).add (.error cause) = summary reports (failures ++ [cause]) := by
  simp [add, summary, errorLine, String.join_append, String.append_assoc]

/-- After any number of results, the loop has come to the outcome of what they hold. -/
theorem foldl_add_summary (results : List InputResult) :
    results.foldl add (summary reports failures) =
      summary (reports ++ results.flatMap answersOf)
        (failures ++ results.filterMap failureOf?) := by
  induction results generalizing reports failures with
  | nil => simp
  | cons result results ih =>
      rw [List.foldl_cons]
      cases result with
      | ok answers =>
          rw [add_ok_summary, ih]
          simp [List.filterMap_cons, answersOf, failureOf?]
      | error cause =>
          rw [add_error_summary, ih]
          simp [answersOf, failureOf?]

theorem ofResults_eq_summary (results : List InputResult) :
    ofResults results = summary (results.flatMap answersOf) (results.filterMap failureOf?) :=
  @foldl_add_summary [] [] results

/-- The status does not ask for the times. -/
theorem anyUnsatisfiable_eq (reports : List (Report × Elapsed)) :
    anyUnsatisfiable reports =
      (reports.map Prod.fst).any fun report => report.verdict == .unsatisfiable := by
  rw [List.any_map]
  rfl

theorem anyUnsatisfiable_eq_true_iff :
    anyUnsatisfiable reports = true ↔
      ∃ report ∈ reports.map Prod.fst, report.verdict = .unsatisfiable := by
  simp [anyUnsatisfiable_eq]

theorem anyUnsatisfiable_eq_false_iff :
    anyUnsatisfiable reports = false ↔
      ∀ report ∈ reports.map Prod.fst, report.verdict = .satisfiable := by
  have satisfiable (verdict : Verdict) : verdict ≠ .unsatisfiable ↔ verdict = .satisfiable := by
    cases verdict <;> simp
  simp only [anyUnsatisfiable_eq, List.any_eq_false, beq_iff_eq, satisfiable]

/-- What each status stands for. -/
theorem exitStatus_summary (reports : List (Report × Elapsed)) (failures : List SolveError) :
    ((summary reports failures).exitStatus = 255 ↔ failures ≠ []) ∧
    ((summary reports failures).exitStatus = 1 ↔
      failures = [] ∧ ∃ report ∈ reports.map Prod.fst, report.verdict = .unsatisfiable) ∧
    ((summary reports failures).exitStatus = 0 ↔
      failures = [] ∧ ∀ report ∈ reports.map Prod.fst, report.verdict = .satisfiable) := by
  rw [← anyUnsatisfiable_eq_true_iff, ← anyUnsatisfiable_eq_false_iff]
  by_cases failed : failures = []
  · cases unsatisfiable : anyUnsatisfiable reports <;> simp [summary, failed, unsatisfiable]
  · simp [summary, failed]

/-- The status depends neither on the order nor on the times. -/
theorem exitStatus_summary_of_perm {others : List (Report × Elapsed)}
    {otherFailures : List SolveError}
    (sameReports : (reports.map Prod.fst).Perm (others.map Prod.fst))
    (sameFailures : failures.Perm otherFailures) :
    (summary reports failures).exitStatus = (summary others otherFailures).exitStatus := by
  have unsatisfiable : anyUnsatisfiable reports = anyUnsatisfiable others := by
    rw [anyUnsatisfiable_eq, anyUnsatisfiable_eq, sameReports.any_eq]
  have failed : failures = [] ↔ otherFailures = [] := by
    rw [← List.length_eq_zero_iff, sameFailures.length_eq, List.length_eq_zero_iff]
  simp only [summary, unsatisfiable, Ne, failed]

end Outcome

/-- There is one report for each procedure. -/
theorem Settings.map_solver_of_solveStream_eq_ok {settings : Settings} {name : String}
    {s : ByteStream} {reports : List Report} (solved : settings.solveStream name s = .ok reports) :
    reports.map (fun report => (report.name, report.solver)) =
      settings.solver.procedures.map fun procedure => (name, .only procedure) := by
  rw [solveStream_eq] at solved
  cases contents : s.contents with
  | error cause =>
      rw [contents] at solved
      cases solved
  | ok text =>
      rw [contents] at solved
      obtain ⟨f, m, -, -, rfl⟩ := solve_eq_ok_iff.mp solved
      rw [List.map_map]
      rfl

namespace CommandLine.Command

/-- What a command may leave behind. Its results are those of its sources, each at its place,
whatever times are taken. -/
inductive Leaves (readFile : String → ByteStream) (standardInput : ByteStream) :
    Command → Outcome → Prop
  | version : Leaves readFile standardInput .showVersion .version
  | results {settings : Settings} {inputs : List String} {results : List InputResult}
      (given : results.map InputResult.withoutTimes =
        (sources inputs readFile standardInput).map fun (name, stream) =>
          settings.solveStream name stream) :
      Leaves readFile standardInput (.solve settings inputs) (.ofResults results)

/-- What solving each input gives. Without inputs it is the standard input that is solved. -/
def answers (settings : Settings) (inputs : List String) (readFile : String → ByteStream)
    (standardInput : ByteStream) : List (Except SolveError (List Report)) :=
  if inputs = [] then [settings.solveStream "<stdin>" standardInput]
  else inputs.map fun path => settings.solveStream path (readFile path)

variable {settings : Settings} {inputs others : List String} {readFile : String → ByteStream}
  {standardInput : ByteStream} {outcome other : Outcome}

/-- The sources are the inputs, all of them and in their order. -/
theorem map_solveStream_sources (settings : Settings) (inputs : List String)
    (readFile : String → ByteStream) (standardInput : ByteStream) :
    ((sources inputs readFile standardInput).map fun (name, stream) =>
        settings.solveStream name stream) =
      answers settings inputs readFile standardInput := by
  by_cases noInput : inputs = []
  · subst noInput
    rfl
  · have someInput : ¬ inputs.isEmpty = true := by simpa using noInput
    rw [sources, if_neg someInput, answers, if_neg noInput, List.map_map]
    rfl

/-- Taking no time at all is one way to run. -/
theorem leaves_runIn (command : Command) (dir : Directory) (standardInput : ByteStream) :
    command.Leaves dir.read standardInput (command.runIn dir standardInput) := by
  cases command with
  | showVersion => exact .version
  | solve settings inputs =>
      apply Leaves.results
      rw [List.map_map]
      refine List.map_congr_left fun source _ => ?_
      dsimp only [Function.comp_apply]
      cases settings.solveStream source.1 source.2 with
      | error cause => rfl
      | ok reports => simp [InputResult.withoutTimes, Except.map, Function.comp_def]

theorem answers_perm (sameInputs : inputs.Perm others) (settings : Settings)
    (readFile : String → ByteStream) (standardInput : ByteStream) :
    (answers settings inputs readFile standardInput).Perm
      (answers settings others readFile standardInput) := by
  by_cases noInput : inputs = []
  · subst noInput
    rw [sameInputs.nil_eq]
  · have someOther : others ≠ [] := by
      rintro rfl
      exact noInput sameInputs.eq_nil
    rw [answers, answers, if_neg noInput, if_neg someOther]
    exact sameInputs.map _

/-- A run leaves the outcome of all reports and all errors of its inputs, in order. -/
theorem Leaves.exists_summary
    (leaves : (solve settings inputs).Leaves readFile standardInput outcome) :
    ∃ reports : List (Report × Elapsed),
      (reports.map Prod.fst =
        (answers settings inputs readFile standardInput).flatMap answersOf) ∧
      outcome = .summary reports
        ((answers settings inputs readFile standardInput).filterMap failureOf?) := by
  cases leaves with
  | @results _ _ results given =>
      rw [map_solveStream_sources] at given
      refine ⟨results.flatMap answersOf, ?_, ?_⟩
      · rw [InputResult.map_flatMap_answersOf, given]
      · rw [Outcome.ofResults_eq_summary, InputResult.filterMap_failureOf?, given]

theorem exitStatus_eq_of_perm (sameInputs : inputs.Perm others)
    (leaves : (solve settings inputs).Leaves readFile standardInput outcome)
    (otherLeaves : (solve settings others).Leaves readFile standardInput other) :
    other.exitStatus = outcome.exitStatus := by
  have sameAnswers := answers_perm sameInputs settings readFile standardInput
  obtain ⟨reports, reported, rfl⟩ := leaves.exists_summary
  obtain ⟨otherReports, otherReported, rfl⟩ := otherLeaves.exists_summary
  apply Outcome.exitStatus_summary_of_perm
  · rw [reported, otherReported]
    exact (sameAnswers.flatMap_right _).symm
  · exact (sameAnswers.filterMap _).symm

/-- A run takes all inputs into account, whatever comes of those before. The status says
whether any of them failed, and if none did whether any report is of an unsatisfiable problem,
so the order of the inputs does not matter to it. The outputs hold the lines of all reports
and those of all errors, in the order of the inputs and nothing else. The reports of an input
that did not fail are those of the chosen procedures, the case split first. -/
theorem outcome_accounts_for_every_input
    (leaves : (solve settings inputs).Leaves readFile standardInput outcome) :
    let answers := answers settings inputs readFile standardInput
    ((outcome.exitStatus = 255 ↔ ∃ cause, .error cause ∈ answers) ∧
      (outcome.exitStatus = 1 ↔ (∀ cause, .error cause ∉ answers) ∧
        ∃ reports, .ok reports ∈ answers ∧
          ∃ report ∈ reports, report.verdict = .unsatisfiable) ∧
      (outcome.exitStatus = 0 ↔ (∀ cause, .error cause ∉ answers) ∧
        ∀ reports, .ok reports ∈ answers →
          ∀ report ∈ reports, report.verdict = .satisfiable)) ∧
    (∀ others other, inputs.Perm others →
      (solve settings others).Leaves readFile standardInput other →
        other.exitStatus = outcome.exitStatus) ∧
    (∃ reports : List (Report × Elapsed),
      reports.map Prod.fst = answers.flatMap answersOf ∧
      outcome.output =
        String.join (reports.map fun (report, elapsed) => report.line elapsed ++ "\n")) ∧
    (outcome.errors = String.join
      ((answers.filterMap failureOf?).map fun cause => "error: " ++ cause.message ++ "\n")) ∧
    ∀ name stream reports, settings.solveStream name stream = .ok reports →
      reports.map (fun report => (report.name, report.solver)) =
        match settings.solver with
        | .only procedure => [(name, .only procedure)]
        | .both => [(name, .only .splitting), (name, .only .backtracking)] := by
  intro answers
  obtain ⟨reports, reported, summarized⟩ := leaves.exists_summary
  refine ⟨?_, fun others other sameInputs otherLeaves =>
    exitStatus_eq_of_perm sameInputs leaves otherLeaves, ⟨reports, reported, ?_⟩, ?_,
    fun name stream reports solved => ?_⟩
  · have stands := Outcome.exitStatus_summary reports (answers.filterMap failureOf?)
    rw [← summarized, reported, Ne, filterMap_failureOf?_eq_nil_iff,
      exists_mem_flatMap_answersOf_iff, forall_mem_flatMap_answersOf_iff] at stands
    simpa only [not_forall, not_not] using stands
  · rw [summarized]
    rfl
  · rw [summarized]
    rfl
  · rw [Settings.map_solver_of_solveStream_eq_ok solved]
    cases settings.solver <;> rfl

/-- An input that cannot be read stands between two that can. -/
theorem outcome_accounts_for_every_input_around_error :
    let settings : Settings := ⟨.both, .expression, .reject⟩
    let dir : Directory := .ofListing
      [("never", .file (Text.encode "(1)^(~1)".toList)), ("fine", .file (Text.encode "(2)".toList))]
    let outcome := (solve settings ["never", "lost", "fine"]).runIn dir ⟨[], none⟩
    outcome.exitStatus = 255 ∧
      ((solve settings ["fine", "never", "lost"]).runIn dir ⟨[], none⟩).exitStatus = 255 ∧
      outcome.errors = "error: i/o error: No such file or directory (os error 2)\n" ∧
      ∃ reports : List (Report × Elapsed),
        (reports.map Prod.fst =
          [⟨"never", 1, 2, .only .splitting, .unsatisfiable, 3⟩,
            ⟨"never", 1, 2, .only .backtracking, .unsatisfiable, 2⟩,
            ⟨"fine", 1, 1, .only .splitting, .satisfiable, 3⟩,
            ⟨"fine", 1, 1, .only .backtracking, .satisfiable, 2⟩]) ∧
        outcome.output =
          String.join (reports.map fun (report, elapsed) => report.line elapsed ++ "\n") := by
  intro settings dir outcome
  have answered : answers settings ["never", "lost", "fine"] dir.read ⟨[], none⟩ =
      [.ok [⟨"never", 1, 2, .only .splitting, .unsatisfiable, 3⟩,
          ⟨"never", 1, 2, .only .backtracking, .unsatisfiable, 2⟩],
        .error (.read .missing),
        .ok [⟨"fine", 1, 1, .only .splitting, .satisfiable, 3⟩,
          ⟨"fine", 1, 1, .only .backtracking, .satisfiable, 2⟩]] := by
    decide +kernel
  have accounted := outcome_accounts_for_every_input
    (leaves_runIn (solve settings ["never", "lost", "fine"]) dir ⟨[], none⟩)
  rw [answered] at accounted
  have failed : outcome.exitStatus = 255 := accounted.1.1.mpr ⟨.read .missing, by simp⟩
  have moved : List.Perm ["never", "lost", "fine"] ["fine", "never", "lost"] := by decide
  exact ⟨failed, (accounted.2.1 _ _ moved (leaves_runIn _ dir ⟨[], none⟩)).trans failed,
    accounted.2.2.2.1, accounted.2.2.1⟩

end CommandLine.Command

end Clausal
