/-
# Verdicts

Every decision procedure answers the same question, whether some assignment
satisfies all clauses, and so all of them share one type of answer.
-/

namespace Clausal

/-- The answer of a decision procedure. -/
inductive Verdict where
  | satisfiable
  | unsatisfiable
deriving DecidableEq, Repr

namespace Verdict

def ofBool : Bool → Verdict
  | true => satisfiable
  | false => unsatisfiable

def toBool : Verdict → Bool
  | satisfiable => true
  | unsatisfiable => false

/-- The verdict as a number, one for satisfiable. -/
def toNat (verdict : Verdict) : Nat :=
  verdict.toBool.toNat

def name : Verdict → String
  | satisfiable => "Satisfiable"
  | unsatisfiable => "Unsatisfiable"

/-- The word that stands for the verdict in a report. -/
def word : Verdict → String
  | satisfiable => "SAT"
  | unsatisfiable => "UNSAT"

@[simp]
theorem toBool_ofBool (answer : Bool) : (ofBool answer).toBool = answer := by
  cases answer <;> rfl

@[simp]
theorem ofBool_eq_satisfiable {answer : Bool} : ofBool answer = satisfiable ↔ answer = true := by
  cases answer <;> simp [ofBool]

@[simp]
theorem toBool_eq_true {verdict : Verdict} : verdict.toBool = true ↔ verdict = satisfiable := by
  cases verdict <;> simp [toBool]

/-- Two verdicts on the same question are equal. -/
theorem eq_of_satisfiable_iff {first second : Verdict} {answer : Prop}
    (firstAnswers : first = satisfiable ↔ answer) (secondAnswers : second = satisfiable ↔ answer) :
    first = second := by
  have same : first = satisfiable ↔ second = satisfiable := firstAnswers.trans secondAnswers.symm
  cases first <;> cases second <;> simp_all

end Verdict

end Clausal
