/-
# The row of a clause

What stands in the row of a clause, whatever the order and the repetitions of
its literals: in the column of each variable the sign of its first literal. A
row grows by one literal at a time. A literal writes its cell if no other of
the same variable came before it, and changes nothing if one did.
-/

import Clausal.Matrix.Basic
import Clausal.Proofs.Formula.Truth

namespace Clausal

namespace Clause

/-- The sign of the first literal of a variable, if there is one. -/
def cell (c : Clause) (v : Variable) : Cell :=
  (c.literals.find? fun l => l.var = v).map Literal.sign

theorem cell_eq_none_iff {c : Clause} {v : Variable} :
    c.cell v = none ↔ ∀ l ∈ c.literals, l.var ≠ v := by
  simp [cell]

/-- A variable without a cell is in the clause neither way. -/
theorem not_mem_of_cell_eq_none {c : Clause} {l : Literal} (absent : c.cell l.var = none) :
    l ∉ c.literals :=
  fun present => cell_eq_none_iff.mp absent l present rfl

theorem mem_of_cell_eq_some {c : Clause} {v : Variable} {sign : Sign}
    (written : c.cell v = some sign) : ⟨sign, v⟩ ∈ c.literals := by
  obtain ⟨l, first, rfl⟩ := Option.map_eq_some_iff.mp written
  obtain rfl : l.var = v := by simpa using List.find?_some first
  exact List.mem_of_find?_eq_some first

/-- A cell with another sign than a literal comes from the complement. -/
theorem complement_mem_of_cell_ne {c : Clause} {l : Literal} {sign : Sign}
    (written : c.cell l.var = some sign) (differs : sign ≠ l.sign) :
    l.complement ∈ c.literals := by
  have present := mem_of_cell_eq_some written
  have sameVar : (⟨sign, l.var⟩ : Literal).var = l.var := rfl
  rcases Literal.eq_or_eq_complement sameVar with same | other
  · exact absurd (congrArg Literal.sign same) differs
  · exact other ▸ present

/-- In a clause without complementary pairs each literal has its sign in the cell. -/
theorem cell_of_mem {c : Clause} {l : Literal} (consistent : c.isTautological = false)
    (present : l ∈ c.literals) : c.cell l.var = some l.sign := by
  cases written : c.cell l.var with
  | none => exact absurd present (not_mem_of_cell_eq_none written)
  | some sign =>
      by_cases same : sign = l.sign
      · rw [same]
      · have paired := complement_mem_of_cell_ne written same
        have tautological := isTautological_iff.mpr ⟨l, present, paired⟩
        exact absurd (consistent.symm.trans tautological) Bool.false_ne_true

/-- A literal at the end is the first of its variable or is not seen. -/
theorem cell_append_singleton (before : List Literal) (l : Literal) (v : Variable) :
    cell ⟨before ++ [l]⟩ v = (cell ⟨before⟩ v).or (if l.var = v then some l.sign else none) := by
  by_cases own : l.var = v <;>
    cases first : before.find? (fun l => decide (l.var = v)) <;>
    simp [cell, List.find?_append, own, first]

/-- One literal more makes a complementary pair only with an earlier one. -/
theorem isTautological_append_singleton_iff {before : List Literal} {l : Literal} :
    isTautological ⟨before ++ [l]⟩ = true ↔
      isTautological ⟨before⟩ = true ∨ l.complement ∈ before := by
  simp only [isTautological_iff, List.mem_append, List.mem_singleton]
  apply Iff.intro
  · intro paired
    rcases paired with ⟨other, inBefore | rfl, complementInBefore | complementLast⟩
    · exact Or.inl ⟨other, inBefore, complementInBefore⟩
    · subst complementLast
      exact Or.inr (by simpa using inBefore)
    · exact Or.inr complementInBefore
    · exact absurd complementLast (Literal.complement_ne _)
  · intro paired
    rcases paired with ⟨other, inBefore, complementInBefore⟩ | complementInBefore
    · exact ⟨other, Or.inl inBefore, Or.inl complementInBefore⟩
    · exact ⟨l, Or.inr rfl, Or.inl complementInBefore⟩

theorem isTautological_append_of_complement_not_mem {before : List Literal} {l : Literal}
    (unpaired : l.complement ∉ before) :
    isTautological ⟨before ++ [l]⟩ = isTautological ⟨before⟩ := by
  rw [Bool.eq_iff_iff, isTautological_append_singleton_iff]
  exact or_iff_left unpaired

/-- A repeated literal makes no pair that was not there before. -/
theorem isTautological_append_of_mem {before : List Literal} {l : Literal}
    (repeated : l ∈ before) : isTautological ⟨before ++ [l]⟩ = isTautological ⟨before⟩ := by
  rw [Bool.eq_iff_iff, isTautological_append_singleton_iff]
  exact or_iff_left_of_imp fun paired => isTautological_iff.mpr ⟨l, repeated, paired⟩

/-- The cells of a clause in the given columns. -/
def row (columns : List Variable) (c : Clause) : Row :=
  columns.map c.cell

@[simp]
theorem length_row (columns : List Variable) (c : Clause) :
    (c.row columns).length = columns.length :=
  List.length_map _

theorem getElem?_row (columns : List Variable) (c : Clause) (column : Nat) :
    (c.row columns)[column]? = columns[column]?.map c.cell :=
  List.getElem?_map

/-- A variable that has no cell yet gets it from the next literal. -/
theorem set_row_of_cell_eq_none {columns : List Variable} (nodup : columns.Nodup)
    {before : List Literal} {l : Literal} {column : Nat} (place : columns[column]? = some l.var)
    (absent : cell ⟨before⟩ l.var = none) :
    (row columns ⟨before⟩).set column (some l.sign) = row columns ⟨before ++ [l]⟩ := by
  obtain ⟨inside, atColumn⟩ := List.getElem?_eq_some_iff.mp place
  apply List.ext_getElem?
  intro other
  rw [List.getElem?_set, getElem?_row, getElem?_row, length_row]
  by_cases same : column = other
  · subst same
    simp [inside, atColumn, cell_append_singleton, absent]
  · rw [if_neg same]
    cases beside : columns[other]? with
    | none => rfl
    | some v =>
        have different : l.var ≠ v := by
          intro own
          subst own
          exact same ((List.getElem?_inj inside nodup).mp (place.trans beside.symm))
        simp [cell_append_singleton, different]

/-- A variable that has its cell keeps it. -/
theorem row_append_of_cell_eq_some {before : List Literal} {l : Literal} {sign : Sign}
    (written : cell ⟨before⟩ l.var = some sign) (columns : List Variable) :
    row columns ⟨before ++ [l]⟩ = row columns ⟨before⟩ := by
  apply List.map_congr_left
  intro v _
  rw [cell_append_singleton]
  by_cases own : l.var = v
  · subst own
    simp [written]
  · simp [own]

end Clause

end Clausal
