/-
# Enumeration against the searches

Enumeration runs through the numbers below a power of two and reads the bits of
each as the values of the formula's own variables. Every valuation agrees on
these variables with one of the numbers, so enumeration decides satisfiability.
A matrix of the formula may have more columns and fewer clauses, but it has the
same models, and the searches on it cannot differ from the enumeration.
-/

import Clausal.Proofs.Matrix.Models
import Clausal.Proofs.Search.Agreement
import Clausal.Search.Enumeration
import Mathlib.Data.Nat.Bitwise

namespace Clausal

/-- On distinct variables, every valuation is written in the bits of a number. -/
theorem Valuation.exists_ofBits_eq {vs : List Variable} (nodup : vs.Nodup)
    (valuation : Valuation) :
    ∃ bits < 2 ^ vs.length, ∀ v ∈ vs, ofBits vs bits v = valuation v := by
  refine ⟨Nat.ofBits fun place : Fin vs.length => valuation vs[place],
    Nat.ofBits_lt_two_pow _, fun v present => ?_⟩
  obtain ⟨place, inside, rfl⟩ := List.mem_iff_getElem.mp present
  rw [ofBits, nodup.idxOf_getElem place inside, Nat.testBit_ofBits_lt _ _ inside]
  rfl

namespace Formula

/-- A formula is satisfiable when the bits of some number satisfy it. -/
theorem any_bits_iff_satisfiable {f : Formula} :
    ((List.range (1 <<< f.vars.length)).any fun bits =>
      f.eval (Valuation.ofBits f.vars bits)) = true ↔ f.Satisfiable := by
  rw [List.any_eq_true, Nat.one_shiftLeft]
  apply Iff.intro
  · intro found
    rcases found with ⟨bits, -, holds⟩
    exact ⟨Valuation.ofBits f.vars bits, holds⟩
  · intro satisfiable
    rcases satisfiable with ⟨valuation, holds⟩
    obtain ⟨bits, small, agree⟩ := Valuation.exists_ofBits_eq f.nodup_vars valuation
    exact ⟨bits, List.mem_range.mpr small, (eval_congr agree).trans holds⟩

/-- With few enough variables, enumeration decides satisfiability. -/
theorem exists_enumerate_eq_ok {f : Formula} (few : f.vars.length ≤ enumerationLimit) :
    ∃ verdict, f.enumerate = .ok verdict ∧ (verdict = .satisfiable ↔ f.Satisfiable) := by
  refine ⟨_, if_pos few, ?_⟩
  rw [Verdict.ofBool_eq_satisfiable]
  exact any_bits_iff_satisfiable

/-- Enumerating the valuations of a formula gives the verdict that both searches
give on each of its matrices, whatever columns these have and whether or not
they have lost tautologies. -/
theorem enumerate_eq_ok_search {f : Formula} {columns : List Variable} {policy : TautologyPolicy}
    {m : ClauseMatrix} (few : f.vars.length ≤ enumerationLimit)
    (encoded : ClauseMatrix.encode columns f policy = .ok m) :
    f.enumerate = .ok (Splitter.new m).solve.1 ∧ f.enumerate = .ok (Backtracker.new m).solve.1 := by
  obtain ⟨verdict, enumerated, decides⟩ := exists_enumerate_eq_ok few
  have models : m.Satisfiable ↔ f.Satisfiable := ClauseMatrix.satisfiable_iff_of_encode encoded
  have splitting : (Splitter.new m).solve.1 = .satisfiable ↔ f.Satisfiable :=
    Splitter.solve_eq_satisfiable_iff.trans models
  have backtracking : (Backtracker.new m).solve.1 = .satisfiable ↔ f.Satisfiable :=
    (Backtracker.solve_eq_satisfiable_iff rfl).trans models
  rw [enumerated]
  exact ⟨congrArg Except.ok (Verdict.eq_of_satisfiable_iff decides splitting),
    congrArg Except.ok (Verdict.eq_of_satisfiable_iff decides backtracking)⟩

/-- Two clauses that can be satisfied, a tautology and a column too many. -/
theorem enumerate_eq_ok_search_wider :
    (vars ⟨[⟨[.positive (.mk 0), .negative (.mk 7)]⟩, ⟨[.positive (.mk 7), .negative (.mk 7)]⟩,
        ⟨[.negative (.mk 0)]⟩]⟩).length ≤ enumerationLimit ∧
      ClauseMatrix.encode [.mk 0, .mk 3, .mk 7]
          ⟨[⟨[.positive (.mk 0), .negative (.mk 7)]⟩, ⟨[.positive (.mk 7), .negative (.mk 7)]⟩,
            ⟨[.negative (.mk 0)]⟩]⟩ .drop =
        .ok ⟨3, [[some .positive, none, some .negative], [some .negative, none, none]],
          by decide⟩ ∧
      enumerate ⟨[⟨[.positive (.mk 0), .negative (.mk 7)]⟩,
          ⟨[.positive (.mk 7), .negative (.mk 7)]⟩, ⟨[.negative (.mk 0)]⟩]⟩ =
        .ok (Splitter.new ⟨3, [[some .positive, none, some .negative],
          [some .negative, none, none]], by decide⟩).solve.1 := by
  have few : (vars ⟨[⟨[.positive (.mk 0), .negative (.mk 7)]⟩,
      ⟨[.positive (.mk 7), .negative (.mk 7)]⟩, ⟨[.negative (.mk 0)]⟩]⟩).length ≤
        enumerationLimit := by decide
  have encoded : ClauseMatrix.encode [.mk 0, .mk 3, .mk 7]
        ⟨[⟨[.positive (.mk 0), .negative (.mk 7)]⟩, ⟨[.positive (.mk 7), .negative (.mk 7)]⟩,
          ⟨[.negative (.mk 0)]⟩]⟩ .drop =
      .ok ⟨3, [[some .positive, none, some .negative], [some .negative, none, none]],
        by decide⟩ := rfl
  exact ⟨few, encoded, (enumerate_eq_ok_search few encoded).1⟩

end Formula

end Clausal
