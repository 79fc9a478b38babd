/-
# Formulas in conjunctive normal form

A formula is a list of clauses and a clause a list of literals. Both are lists
and not sets: the order and the repetitions of the written formula are kept,
because clause numbers in error messages refer to them.
-/

import Clausal.Sign

namespace Clausal

/-- A propositional variable, named by a number of at most 64 bits. -/
structure Variable where
  index : Nat
  index_lt : index < UInt64.size := by decide
deriving DecidableEq

namespace Variable

/-- Variables are ordered by their numbers. -/
instance : LT Variable where
  lt first second := first.index < second.index

instance (first second : Variable) : Decidable (first < second) :=
  inferInstanceAs (Decidable (first.index < second.index))

instance : ToString Variable where
  toString v := toString v.index

/-- Every variable is below the next one. It suffices to compare neighbours. -/
def ascending : List Variable → Bool
  | [] => true
  | [_] => true
  | first :: second :: rest => decide (first < second) && ascending (second :: rest)

/-- Put a variable in its place in an ascending list, unless it is there. -/
def insertAscending (v : Variable) : List Variable → List Variable
  | [] => [v]
  | first :: rest =>
      if v < first then v :: first :: rest
      else if first < v then first :: insertAscending v rest
      else first :: rest

/-- The variables of a list in ascending order, each of them once. -/
def sortDistinct (vs : List Variable) : List Variable :=
  vs.foldr insertAscending []

theorem eq_of_index_eq {first second : Variable} (same : first.index = second.index) :
    first = second := by
  cases first
  cases second
  simpa using same

theorem eq_of_not_lt {first second : Variable} (notBelow : ¬ first < second)
    (notAbove : ¬ second < first) : first = second := by
  cases first
  cases second
  simp only [LT.lt, mk.injEq] at *
  exact Nat.le_antisymm (Nat.le_of_not_lt notAbove) (Nat.le_of_not_lt notBelow)

/-- To compare neighbours is to compare each variable with all that follow. -/
theorem ascending_iff_pairwise {vs : List Variable} :
    ascending vs = true ↔ vs.Pairwise fun first second => first < second := by
  induction vs with
  | nil => simp [ascending]
  | cons first rest ih =>
      cases rest with
      | nil => simp [ascending]
      | cons second others =>
          rw [ascending, Bool.and_eq_true, decide_eq_true_eq, ih]
          constructor
          · rintro ⟨below, sorted⟩
            refine List.pairwise_cons.mpr ⟨fun v present => ?_, sorted⟩
            rcases List.mem_cons.mp present with rfl | later
            · exact below
            · exact Nat.lt_trans below ((List.pairwise_cons.mp sorted).1 v later)
          · intro sorted
            obtain ⟨below, tailSorted⟩ := List.pairwise_cons.mp sorted
            exact ⟨below second List.mem_cons_self, tailSorted⟩

/-- An ascending list repeats no variable. -/
theorem nodup_of_ascending {vs : List Variable} (sorted : ascending vs = true) : vs.Nodup := by
  refine (ascending_iff_pairwise.mp sorted).imp ?_
  rintro first second below rfl
  exact Nat.lt_irrefl _ below

/-- An ascending list is told by the variables in it. -/
theorem eq_of_ascending {first second : List Variable} (firstSorted : ascending first = true)
    (secondSorted : ascending second = true) (sameVars : ∀ v, v ∈ first ↔ v ∈ second) :
    first = second := by
  have rearranged : first.Perm second :=
    (List.perm_ext_iff_of_nodup (nodup_of_ascending firstSorted)
      (nodup_of_ascending secondSorted)).mpr sameVars
  refine rearranged.eq_of_pairwise ?_ (ascending_iff_pairwise.mp firstSorted)
    (ascending_iff_pairwise.mp secondSorted)
  intro u v _ _ below above
  exact absurd above (Nat.lt_asymm below)

/-- Inserting adds the one variable and no other. -/
theorem mem_insertAscending {u v : Variable} {vs : List Variable} :
    u ∈ insertAscending v vs ↔ u = v ∨ u ∈ vs := by
  induction vs with
  | nil => simp [insertAscending]
  | cons first rest ih =>
      by_cases below : v < first
      · simp [insertAscending, below]
      · by_cases above : first < v
        · simp [insertAscending, below, above, ih, or_left_comm]
        · obtain rfl := eq_of_not_lt below above
          simp [insertAscending, below]

/-- Inserting keeps the order. -/
theorem ascending_insertAscending {v : Variable} {vs : List Variable}
    (sorted : ascending vs = true) : ascending (insertAscending v vs) = true := by
  induction vs with
  | nil => rfl
  | cons first rest ih =>
      by_cases below : v < first
      · simp [insertAscending, below, ascending, sorted]
      · by_cases above : first < v
        · simp only [insertAscending, below, above, if_true, if_false]
          cases rest with
          | nil => simp [insertAscending, ascending, above]
          | cons second others =>
              simp only [ascending, Bool.and_eq_true, decide_eq_true_eq] at sorted
              have tailSorted := ih sorted.2
              by_cases belowSecond : v < second
              · simp [insertAscending, belowSecond, ascending, above, sorted.2]
              · by_cases aboveSecond : second < v
                · simp only [insertAscending, belowSecond, aboveSecond, if_true, if_false]
                    at tailSorted ⊢
                  simp [ascending, sorted.1, tailSorted]
                · simp [insertAscending, belowSecond, aboveSecond, ascending, sorted]
        · simpa [insertAscending, below, above] using sorted

@[simp]
theorem mem_sortDistinct {v : Variable} {vs : List Variable} : v ∈ sortDistinct vs ↔ v ∈ vs := by
  induction vs with
  | nil => simp [sortDistinct]
  | cons first rest ih => simpa [sortDistinct, mem_insertAscending] using or_congr_right ih

theorem ascending_sortDistinct (vs : List Variable) : ascending (sortDistinct vs) = true := by
  induction vs with
  | nil => rfl
  | cons first rest ih => exact ascending_insertAscending ih

end Variable

/-- A variable taken as it is or negated. -/
structure Literal where
  sign : Sign
  var : Variable
deriving DecidableEq

namespace Literal

def positive (v : Variable) : Literal := ⟨.positive, v⟩

def negative (v : Variable) : Literal := ⟨.negative, v⟩

/-- The literal that is true exactly when this one is false. -/
def complement (l : Literal) : Literal := ⟨l.sign.opposite, l.var⟩

@[simp]
theorem complement_complement (l : Literal) : l.complement.complement = l := by
  simp [complement]

theorem complement_ne (l : Literal) : l.complement ≠ l := by
  obtain ⟨sign, v⟩ := l
  cases sign <;> simp [complement, Sign.opposite]

/-- Two literals of one variable are equal or complementary. -/
theorem eq_or_eq_complement {first second : Literal} (sameVar : first.var = second.var) :
    first = second ∨ first = second.complement := by
  obtain ⟨firstSign, v⟩ := first
  obtain ⟨secondSign, u⟩ := second
  obtain rfl : v = u := sameVar
  cases firstSign <;> cases secondSign <;> simp [complement, Sign.opposite]

end Literal

/-- A disjunction of literals. The empty clause is false. -/
structure Clause where
  literals : List Literal
deriving DecidableEq

namespace Clause

/-- A clause with a complementary pair of literals is true under every
assignment. -/
def isTautological (c : Clause) : Bool :=
  c.literals.any fun l => c.literals.contains l.complement

end Clause

/-- A conjunction of clauses. The empty formula is true. -/
structure Formula where
  clauses : List Clause
deriving DecidableEq

namespace Formula

/-- The variables that a formula mentions, ascending and each of them once.
They are the columns of its clause matrix. -/
def vars (f : Formula) : List Variable :=
  Variable.sortDistinct (f.clauses.flatMap fun c => c.literals.map Literal.var)

theorem mem_vars {f : Formula} {v : Variable} :
    v ∈ f.vars ↔ ∃ c ∈ f.clauses, ∃ l ∈ c.literals, l.var = v := by
  simp [vars]

theorem ascending_vars (f : Formula) : Variable.ascending f.vars = true :=
  Variable.ascending_sortDistinct _

theorem nodup_vars (f : Formula) : f.vars.Nodup :=
  Variable.nodup_of_ascending f.ascending_vars

end Formula

end Clausal
