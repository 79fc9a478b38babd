/-
# The stack of a search

As a program, a search is a function that calls itself on a stack of signs. A call checks the
stack if it has a sign for each column, and else it pushes a sign, calls itself, takes the sign
back and, unless that call has found something, does the same with the other sign. No call knows
how many columns are left. That calls end rests on the stack alone: a call leaves it as it was,
so the second call starts from the same number of signs as the first, whatever the first did.
-/

import Clausal.Proofs.Search.Backtracking

namespace Clausal

namespace Trail

variable {m : ClauseMatrix} {trail : Trail}

/-- One call of a search, when `below` answers the calls that it makes. -/
def searchCall (m : ClauseMatrix) (below : Trail → Option (Bool × Trail)) (trail : Trail) :
    Option (Bool × Trail) :=
  if trail.signs.size = m.width then some (trail.check m)
  else do
    let (found, trail) ← below (trail.push .negative)
    let trail := trail.pop
    if found then return (true, trail)
    let (found, trail) ← below (trail.push .positive)
    return (found, trail.pop)

/-- A call with at most so many levels of further calls, without an answer if it needs more. -/
def searchWithin (m : ClauseMatrix) : (levels : Nat) → Trail → Option (Bool × Trail)
  | 0 => searchCall m fun _ => none
  | levels + 1 => searchCall m (searchWithin m levels)

@[simp]
theorem size_signs_push (trail : Trail) (sign : Sign) :
    (trail.push sign).signs.size = trail.signs.size + 1 :=
  Array.size_push ..

/-- The sign that is taken back after a search is the one that was added before it. -/
theorem signs_pop_search_push (m : ClauseMatrix) (trail : Trail) (sign : Sign) :
    ((trail.push sign).search m).2.pop.signs = trail.signs := by
  simp [pop, push]

theorem search_of_size_add {remaining : Nat} (reaches : trail.signs.size + remaining = m.width) :
    trail.search m = searchRemaining m remaining trail := by
  rw [search, ← reaches, Nat.add_sub_cancel_left]

theorem search_of_size_eq (complete : trail.signs.size = m.width) :
    trail.search m = trail.check m := by
  rw [search_of_size_add (by omega : trail.signs.size + 0 = m.width), searchRemaining]

/-- With columns left, a search is the one with a negative sign added and, unless that finds
something, the one with a positive sign in its place. -/
theorem search_of_size_lt (columnsLeft : trail.signs.size < m.width) :
    trail.search m =
      let (found, trail) := (trail.push .negative).search m
      let trail := trail.pop
      if found then (true, trail)
      else
        let (found, trail) := (trail.push .positive).search m
        (found, trail.pop) := by
  obtain ⟨remaining, atEnd⟩ := Nat.exists_eq_add_of_lt columnsLeft
  have longer (other : Trail) (sign : Sign) (sameSigns : other.signs = trail.signs) :
      (other.push sign).search m = searchRemaining m remaining (other.push sign) := by
    apply search_of_size_add
    rw [size_signs_push, sameSigns]
    omega
  rw [search_of_size_add (by omega : trail.signs.size + (remaining + 1) = m.width),
    searchRemaining, ← longer trail .negative rfl]
  -- The positive sign is pushed on the stack that the first search has left.
  have restored := signs_pop_search_push m trail .negative
  cases first : (trail.push .negative).search m with
  | mk found after =>
      rw [first] at restored
      simp only [longer after.pop .positive restored]

/-- A call gives the search if the calls that it makes do, on its stack with one sign more. -/
theorem searchCall_of_answers {below : Trail → Option (Bool × Trail)}
    (columnsLeft : trail.signs.size < m.width)
    (answers : ∀ (other : Trail) (sign : Sign), other.signs = trail.signs →
      below (other.push sign) = some ((other.push sign).search m)) :
    searchCall m below trail = some (trail.search m) := by
  have restored := signs_pop_search_push m trail .negative
  rw [searchCall, if_neg (Nat.ne_of_lt columnsLeft), answers trail .negative rfl,
    search_of_size_lt columnsLeft]
  cases first : (trail.push .negative).search m with
  | mk found after =>
      rw [first] at restored
      cases found with
      | true => rfl
      | false =>
          show (do
            let (found, trail) ← below (after.pop.push .positive)
            return (found, trail.pop)) = _
          rw [answers after.pop .positive restored]
          rfl

theorem searchWithin_of_size_eq (complete : trail.signs.size = m.width) (levels : Nat) :
    searchWithin m levels trail = some (trail.search m) := by
  rw [search_of_size_eq complete]
  cases levels <;> exact if_pos complete

/-- The calls of a search are nested exactly as deep as there are columns left. -/
theorem searchWithin_eq (levels : Nat) (within : trail.signs.size ≤ m.width) :
    searchWithin m levels trail =
      if m.width - trail.signs.size ≤ levels then some (trail.search m) else none := by
  induction levels generalizing trail with
  | zero =>
      rcases Nat.eq_or_lt_of_le within with complete | columnsLeft
      · rw [searchWithin_of_size_eq complete, if_pos (by omega)]
      · rw [if_neg (by omega), searchWithin, searchCall, if_neg (Nat.ne_of_lt columnsLeft)]
        rfl
  | succ levels ih =>
      rcases Nat.eq_or_lt_of_le within with complete | columnsLeft
      · rw [searchWithin_of_size_eq complete, if_pos (by omega)]
      · have below (other : Trail) (sign : Sign) (sameSigns : other.signs = trail.signs) :
            searchWithin m levels (other.push sign) =
              if m.width - trail.signs.size ≤ levels + 1 then some ((other.push sign).search m)
              else none := by
          have oneMore : (other.push sign).signs.size = trail.signs.size + 1 := by
            rw [size_signs_push, sameSigns]
          rw [ih (by omega), oneMore]
          congr 1
          rw [eq_iff_iff]
          omega
        by_cases deepEnough : m.width - trail.signs.size ≤ levels + 1
        · simp only [deepEnough, if_true] at below ⊢
          exact searchCall_of_answers columnsLeft below
        · rw [if_neg deepEnough, searchWithin, searchCall, if_neg (Nat.ne_of_lt columnsLeft),
            below trail .negative rfl, if_neg deepEnough]
          rfl

/-- A search from a stack with no more signs than there are columns ends, with its calls nested
as deep as there are columns left, and the stack is then what it was. It has found something
exactly when signs for the columns left make the stack an assignment that satisfies all rows. It
has checked one assignment at least and at most all that begin with the stack, and all of them
if it has found nothing. -/
theorem search_restores_stack_and_decides_extensions (m : ClauseMatrix) (trail : Trail)
    (within : trail.signs.size ≤ m.width) :
    let columnsLeft := m.width - trail.signs.size
    let found := (trail.search m).1
    let after := (trail.search m).2
    (∀ levels, searchWithin m levels trail =
        if columnsLeft ≤ levels then some (trail.search m) else none) ∧
      after.signs = trail.signs ∧
      (found = true ↔ ∃ rest : Assignment, rest.length = columnsLeft ∧
        ∀ row ∈ m.rows, ∃ (column : Nat) (sign : Sign),
          row[column]? = some (some sign) ∧ (trail.signs.toList ++ rest)[column]? = some sign) ∧
      trail.checked + 1 ≤ after.checked ∧ after.checked ≤ trail.checked + 2 ^ columnsLeft ∧
      (found = false → after.checked = trail.checked + 2 ^ columnsLeft) := by
  intro columnsLeft found after
  have counted : after.checked = trail.checked + tried m (trail.completions columnsLeft) :=
    checked_search m trail
  have all : (trail.completions columnsLeft).length = 2 ^ columnsLeft :=
    trail.length_completions columnsLeft
  refine ⟨fun levels => searchWithin_eq levels within, signs_search m trail, ?_, ?_, ?_, ?_⟩
  · rw [search_fst_iff]
    simp only [ClauseMatrix.satisfiedBy_iff, Row.satisfiedBy_iff]
    rfl
  · have someCandidate : trail.completions columnsLeft ≠ [] := by
      rw [← List.length_pos_iff, all]
      exact Nat.two_pow_pos columnsLeft
    rw [counted]
    exact Nat.add_le_add_left (tried_pos someCandidate) _
  · rw [counted, ← all]
    exact Nat.add_le_add_left (tried_le_length m _) _
  · intro missed
    have nonePasses : (trail.completions columnsLeft).any m.satisfiedBy = false := by
      rw [← search_fst]
      exact missed
    rw [counted, tried_of_not_any nonePasses, all]

/-- Three columns and one sign on the stack, with four checks made before. The two assignments
with the second column negative fail, and so does the first with it positive. With that negative
sign on the stack as well, nothing is found. -/
theorem search_restores_stack_and_decides_extensions_one_sign :
    let m : ClauseMatrix :=
      ⟨3, [[none, some .positive, none], [none, some .negative, some .positive]], by decide⟩
    let trail : Trail := ⟨#[.negative], 4, []⟩
    let stuck : Trail := ⟨#[.negative, .negative], 4, []⟩
    (trail.signs.size ≤ m.width ∧
        trail.search m = (true, ⟨#[.negative], 8, [[.negative, .positive, .positive]]⟩) ∧
        searchWithin m 1 trail = none ∧ searchWithin m 2 trail = some (trail.search m) ∧
        (trail.search m).2.signs = trail.signs ∧
        trail.checked + 1 ≤ (trail.search m).2.checked ∧
        (trail.search m).2.checked ≤ trail.checked + 2 ^ (m.width - trail.signs.size)) ∧
      stuck.signs.size ≤ m.width ∧ (stuck.search m).1 = false ∧
        (stuck.search m).2.signs = stuck.signs ∧
        (stuck.search m).2.checked = stuck.checked + 2 ^ (m.width - stuck.signs.size) := by
  intro m trail stuck
  have within : trail.signs.size ≤ m.width := by decide
  obtain ⟨nested, restored, -, atLeastOne, atMostAll, -⟩ :=
    search_restores_stack_and_decides_extensions m trail within
  have tooFew : searchWithin m 1 trail = none := (nested 1).trans (if_neg (by decide))
  have enough : searchWithin m 2 trail = some (trail.search m) :=
    (nested 2).trans (if_pos (by decide))
  have stuckWithin : stuck.signs.size ≤ m.width := by decide
  have missed : (stuck.search m).1 = false := by decide +kernel
  obtain ⟨-, stuckRestored, -, -, -, allChecked⟩ :=
    search_restores_stack_and_decides_extensions m stuck stuckWithin
  exact ⟨⟨within, by decide +kernel, tooFew, enough, restored, atLeastOne, atMostAll⟩,
    stuckWithin, missed, stuckRestored, allChecked missed⟩

end Trail

end Clausal
