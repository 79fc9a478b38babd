/-
# Renamed variables

A formula with other names for its variables. As long as different variables of the formula
get different names, nothing is lost: a clause holds a pair if the renamed clause does, and a
valuation of the old names is one of the new names. Names that other variables would get play
no part.

The new names have an order of their own. It is that of the old names if the renaming is
increasing, and otherwise the variables are listed in another order.
-/

import Clausal.Proofs.Formula.Truth
import Mathlib.Data.List.Nodup
import Mathlib.Data.Set.Function

namespace Clausal

/-- The literal with the same sign of the renamed variable. -/
def Literal.rename (name : Variable → Variable) (l : Literal) : Literal :=
  ⟨l.sign, name l.var⟩

def Clause.rename (name : Variable → Variable) (c : Clause) : Clause :=
  ⟨c.literals.map (Literal.rename name)⟩

def Formula.rename (name : Variable → Variable) (f : Formula) : Formula :=
  ⟨f.clauses.map (Clause.rename name)⟩

@[simp]
theorem Clause.getElem?_literals_rename (name : Variable → Variable) (c : Clause) (place : Nat) :
    (c.rename name).literals[place]? = c.literals[place]?.map (Literal.rename name) :=
  List.getElem?_map

@[simp]
theorem Formula.getElem?_clauses_rename (name : Variable → Variable) (f : Formula)
    (clause : Nat) :
    (f.rename name).clauses[clause]? = f.clauses[clause]?.map (Clause.rename name) :=
  List.getElem?_map

section names

variable {name : Variable → Variable} {vs : List Variable}

/-- Literals of variables with different names stay different. -/
theorem Literal.rename_eq_rename_iff (distinct : Set.InjOn name {v | v ∈ vs})
    {first second : Literal} (firstCovered : first.var ∈ vs) (secondCovered : second.var ∈ vs) :
    first.rename name = second.rename name ↔ first = second := by
  apply Iff.intro
  · intro same
    obtain ⟨sameSign, sameName⟩ := Literal.mk.inj same
    obtain ⟨sign, v⟩ := first
    obtain rfl : sign = second.sign := sameSign
    obtain rfl : v = second.var := distinct firstCovered secondCovered sameName
    rfl
  · rintro rfl
    rfl

namespace Clause

variable {c : Clause}

theorem rename_mem_rename_iff (distinct : Set.InjOn name {v | v ∈ vs})
    (covered : ∀ l ∈ c.literals, l.var ∈ vs) {l : Literal} (lCovered : l.var ∈ vs) :
    l.rename name ∈ (c.rename name).literals ↔ l ∈ c.literals := by
  rw [rename, List.mem_map]
  apply Iff.intro
  · intro found
    rcases found with ⟨other, present, same⟩
    obtain rfl :=
      (Literal.rename_eq_rename_iff distinct (covered other present) lCovered).mp same
    exact present
  · intro present
    exact ⟨l, present, rfl⟩

/-- The complement of a renamed literal is the renamed complement. -/
theorem complement_mem_rename_iff (distinct : Set.InjOn name {v | v ∈ vs})
    (covered : ∀ l ∈ c.literals, l.var ∈ vs) {l : Literal} (lCovered : l.var ∈ vs) :
    (l.rename name).complement ∈ (c.rename name).literals ↔ l.complement ∈ c.literals :=
  rename_mem_rename_iff (l := l.complement) distinct covered lCovered

/-- A clause holds a pair exactly when it does under the new names. -/
theorem isTautological_rename (distinct : Set.InjOn name {v | v ∈ vs})
    (covered : ∀ l ∈ c.literals, l.var ∈ vs) :
    (c.rename name).isTautological = c.isTautological := by
  rw [Bool.eq_iff_iff, isTautological_iff, isTautological_iff]
  apply Iff.intro
  · intro paired
    rcases paired with ⟨renamed, inRenamed, pairInRenamed⟩
    obtain ⟨l, present, rfl⟩ := List.mem_map.mp inRenamed
    have pairPresent :=
      (complement_mem_rename_iff distinct covered (covered l present)).mp pairInRenamed
    exact ⟨l, present, pairPresent⟩
  · intro paired
    rcases paired with ⟨l, present, pairPresent⟩
    have pairInRenamed :=
      (complement_mem_rename_iff distinct covered (covered l present)).mpr pairPresent
    exact ⟨l.rename name, List.mem_map_of_mem present, pairInRenamed⟩

theorem eval_rename (c : Clause) (name : Variable → Variable) (valuation : Valuation) :
    (c.rename name).eval valuation = c.eval (valuation ∘ name) := by
  rw [rename, eval, eval, List.any_map]
  rfl

end Clause

end names

namespace Formula

variable {f : Formula} {name : Variable → Variable}

theorem mem_vars_rename_iff {w : Variable} :
    w ∈ (f.rename name).vars ↔ ∃ v ∈ f.vars, name v = w := by
  apply Iff.intro
  · intro mentioned
    obtain ⟨renamedClause, inRenamed, renamed, inClause, rfl⟩ := mem_vars.mp mentioned
    obtain ⟨c, present, rfl⟩ := List.mem_map.mp inRenamed
    obtain ⟨l, inOriginal, rfl⟩ := List.mem_map.mp inClause
    exact ⟨l.var, mem_vars.mpr ⟨c, present, l, inOriginal, rfl⟩, rfl⟩
  · intro named
    rcases named with ⟨v, mentioned, rfl⟩
    obtain ⟨c, present, l, inClause, rfl⟩ := mem_vars.mp mentioned
    exact mem_vars.mpr ⟨c.rename name, List.mem_map_of_mem present, l.rename name,
      List.mem_map_of_mem inClause, rfl⟩

/-- The new names are those of the variables, in their own order. -/
theorem vars_rename_perm (distinct : Set.InjOn name {v | v ∈ f.vars}) :
    (f.rename name).vars.Perm (f.vars.map name) := by
  have namesNodup : (f.vars.map name).Nodup := by
    apply List.Nodup.map_on _ f.nodup_vars
    intro u mentioned v otherMentioned same
    exact distinct mentioned otherMentioned same
  rw [List.perm_ext_iff_of_nodup (nodup_vars _) namesNodup]
  intro w
  rw [mem_vars_rename_iff, List.mem_map]

/-- An increasing renaming keeps the order of the variables. -/
theorem vars_rename_of_increasing
    (increasing : ∀ u ∈ f.vars, ∀ v ∈ f.vars, u < v → name u < name v) :
    (f.rename name).vars = f.vars.map name := by
  have sorted := Variable.ascending_iff_pairwise.mp f.ascending_vars
  have namesSorted : (f.vars.map name).Pairwise fun first second => first < second :=
    List.pairwise_map.mpr (sorted.imp_of_mem fun {u v} mentioned otherMentioned below =>
      increasing u mentioned v otherMentioned below)
  apply Variable.eq_of_ascending (ascending_vars _)
    (Variable.ascending_iff_pairwise.mpr namesSorted)
  intro w
  rw [mem_vars_rename_iff, List.mem_map]

/-- The clauses without a pair are the same under the new names. -/
theorem consistent_clauses_rename (distinct : Set.InjOn name {v | v ∈ f.vars}) :
    ((f.rename name).clauses.filter fun c => !c.isTautological) =
      (f.clauses.filter fun c => !c.isTautological).map (Clause.rename name) := by
  rw [rename, List.filter_map]
  apply congrArg (List.map (Clause.rename name))
  apply List.filter_congr
  intro c present
  have covered : ∀ l ∈ c.literals, l.var ∈ f.vars := fun l inClause =>
    mem_vars.mpr ⟨c, present, l, inClause, rfl⟩
  rw [Function.comp_apply, Clause.isTautological_rename distinct covered]

/-- Under the new names a formula has the value that it has where each variable takes the value
of its new name. -/
theorem eval_rename (f : Formula) (name : Variable → Variable) (valuation : Valuation) :
    (f.rename name).eval valuation = f.eval (valuation ∘ name) := by
  rw [rename, eval, eval, List.all_map]
  simp only [Function.comp_def, Clause.eval_rename]

/-- A valuation of the variables is one of their new names, if these are different. -/
theorem satisfiable_rename_iff (distinct : Set.InjOn name {v | v ∈ f.vars}) :
    (f.rename name).Satisfiable ↔ f.Satisfiable := by
  apply Iff.intro
  · intro satisfiable
    rcases satisfiable with ⟨valuation, holds⟩
    exact ⟨valuation ∘ name, f.eval_rename name valuation ▸ holds⟩
  · intro satisfiable
    rcases satisfiable with ⟨valuation, holds⟩
    have : Nonempty Variable := ⟨.mk 0⟩
    -- A name that no variable of the formula gets may have any value.
    refine ⟨valuation ∘ Function.invFunOn name {v | v ∈ f.vars}, ?_⟩
    rw [eval_rename, ← holds]
    apply eval_congr
    intro v mentioned
    exact congrArg valuation (distinct.leftInvOn_invFunOn mentioned)

end Formula

end Clausal
