/-
# The calls of a case split

As a program, a case split is a function that calls itself. A call gets a column and the
rows that are left, and unless one of the two has run out it makes two calls on the next
column. It neither counts the columns that remain nor asks whether the rows reach as far as
its column: that calls end, and that they read no row behind its end, holds because all rows
are as long as the matrix is wide.

So a call can go wrong here in both ways, and the calls that are made are a relation of their
own, given only by which call makes which. What a call is made with is then told by the choices
that lead to it, and its answer by the rows that these choices leave open.
-/

import Clausal.Proofs.Search.Nodes

namespace Clausal

/-- Why a call has no answer. -/
inductive SplitFault where
  /-- A row is read behind its end. -/
  | outOfRange
  /-- Calls are nested deeper than is allowed. -/
  | tooDeep
deriving DecidableEq, Repr

/-- The rows that fixing a column does not satisfy, each of which is read in that column. -/
def readResidual (rows : List Row) (column : Nat) (sign : Sign) :
    Except SplitFault (List Row) :=
  if ∀ row ∈ rows, column < row.length then .ok (residual rows column sign)
  else .error .outOfRange

/-- One call in a matrix of the given width, when `below` answers the calls that it makes. -/
def splitCall (width : Nat) (below : Nat → List Row → Except SplitFault DecisionTree)
    (column : Nat) (rows : List Row) : Except SplitFault DecisionTree :=
  if rows.isEmpty then .ok (.leaf (.satisfied column))
  else if column = width then .ok (.leaf (.unsatisfied column rows.length))
  else do
    let whenTrue ← readResidual rows column .positive
    let whenFalse ← readResidual rows column .negative
    let ifTrue ← below (column + 1) whenTrue
    let ifFalse ← below (column + 1) whenFalse
    return .branch ifTrue ifFalse

/-- A call on a column and the rows that are left, with at most so many levels of further
calls. -/
def splitWithin (width : Nat) : (levels : Nat) → Nat → List Row → Except SplitFault DecisionTree
  | 0 => splitCall width fun _ _ => .error .tooDeep
  | levels + 1 => splitCall width (splitWithin width levels)

theorem readResidual_of_lt {rows : List Row} {column : Nat}
    (inRange : ∀ row ∈ rows, column < row.length) (sign : Sign) :
    readResidual rows column sign = .ok (residual rows column sign) :=
  if_pos inRange

/-- Rows as long as the matrix is wide are never read behind their ends, and a call on them
nests its calls no deeper than there are columns left. -/
theorem splitWithin_of_even {width column remaining : Nat} {rows : List Row}
    (reaches : column + remaining = width) (even : ∀ row ∈ rows, row.length = width) :
    splitWithin width remaining column rows = .ok (splitRows column rows remaining) := by
  induction remaining generalizing column rows with
  | zero =>
      have atEnd : column = width := by omega
      by_cases done : rows = []
      · simp [splitWithin, splitCall, done]
      · simp [splitWithin, splitCall, done, atEnd, splitRows_zero_of_ne_nil]
  | succ remaining ih =>
      by_cases done : rows = []
      · simp [splitWithin, splitCall, done]
      · have inside : column ≠ width := by omega
        have inRange : ∀ row ∈ rows, column < row.length := by
          intro row present
          rw [even row present]
          omega
        have below (sign : Sign) :
            splitWithin width remaining (column + 1) (residual rows column sign) =
              .ok (splitRows (column + 1) (residual rows column sign) remaining) := by
          apply ih (by omega)
          intro row kept
          exact even row (List.mem_of_mem_filter kept)
        rw [splitWithin, splitCall, if_neg (by simpa using done), if_neg inside,
          readResidual_of_lt inRange, readResidual_of_lt inRange, splitRows_succ_of_ne_nil done]
        simp only [bind, Except.bind, below]
        rfl

/-- A row that is shorter than the matrix is wide is read behind its end, and a call behind the
last column does not stop at it. -/
example : splitWithin 2 2 0 [[none]] = .error .outOfRange ∧
    splitWithin 0 5 1 [List.replicate 7 none] = .error .tooDeep :=
  ⟨rfl, rfl⟩

namespace Row

/-- What is not satisfied by the first signs has to be satisfied by the others, in the columns
behind. -/
theorem satisfiedBy_append_of_open {row : Row} {path : Assignment}
    (isOpen : row.satisfiedBy path = false) (rest : Assignment) :
    row.satisfiedBy (path ++ rest) = Row.satisfiedBy (row.drop path.length) rest := by
  induction path generalizing row with
  | nil => rfl
  | cons sign path ih =>
      cases row with
      | nil => simp
      | cons cell row =>
          rw [cons_satisfiedBy_cons, Bool.or_eq_false_iff] at isOpen
          simpa [isOpen.1] using ih isOpen.2

/-- A row is open when it has in no column of the path the sign chosen there. -/
theorem satisfiedBy_eq_false_iff {row : Row} {path : Assignment} :
    row.satisfiedBy path = false ↔
      ∀ (column : Nat) (chosen : column < path.length),
        row[column]? ≠ some (some path[column]) := by
  rw [← Bool.not_eq_true, satisfiedBy_iff]
  apply Iff.intro
  · intro nowhere column chosen agrees
    exact nowhere ⟨column, path[column], agrees, List.getElem?_eq_getElem chosen⟩
  · intro disagree satisfied
    rcases satisfied with ⟨column, sign, agrees, atSign⟩
    obtain ⟨chosen, rfl⟩ := List.getElem?_eq_some_iff.mp atSign
    exact disagree column chosen agrees

end Row

/-- A completion satisfies all rows when its new signs satisfy those that the path leaves open. -/
theorem forall_satisfiedBy_append_iff {rows : List Row} {path rest : Assignment} :
    (∀ row ∈ rows, row.satisfiedBy (path ++ rest) = true) ↔
      ∀ row ∈ openRows rows path, Row.satisfiedBy (row.drop path.length) rest = true := by
  apply Iff.intro
  · intro completed row left
    rcases List.mem_filter.mp left with ⟨present, isOpen⟩
    rw [← Row.satisfiedBy_append_of_open (by simpa using isOpen)]
    exact completed row present
  · intro completed row present
    cases closed : row.satisfiedBy path with
    | true => exact Row.satisfiedBy_append closed rest
    | false =>
        rw [Row.satisfiedBy_append_of_open closed]
        exact completed row (List.mem_filter.mpr ⟨present, by simp [closed]⟩)

namespace ClauseMatrix

/-- The calls that the split of a matrix makes: the choices that lead to a call, one for each
column before its own, and the rows that it gets. -/
inductive Calls (m : ClauseMatrix) : Assignment → List Row → Prop where
  | root : m.Calls [] m.rows
  | branch {path : Assignment} {rows : List Row} (sign : Sign) (caller : m.Calls path rows)
      (rowsLeft : rows ≠ []) (columnsLeft : path.length ≠ m.width) :
      m.Calls (path ++ [sign]) (residual rows path.length sign)

namespace Calls

variable {m : ClauseMatrix} {path : Assignment} {rows : List Row}

/-- Filters on single columns, one after another, are one filter on the whole path. -/
theorem rows_eq (called : m.Calls path rows) : rows = openRows m.rows path := by
  induction called with
  | root => exact (openRows_nil m.rows).symm
  | branch sign caller rowsLeft columnsLeft ih => rw [ih, residual_openRows]

theorem length_le (called : m.Calls path rows) : path.length ≤ m.width := by
  induction called with
  | root => exact Nat.zero_le _
  | branch sign caller rowsLeft columnsLeft ih =>
      rw [List.length_append, List.length_singleton]
      omega

theorem length_row (called : m.Calls path rows) : ∀ row ∈ rows, row.length = m.width := by
  intro row left
  rw [called.rows_eq] at left
  exact m.length_row row (List.mem_of_mem_filter left)

/-- Before each choice some row was open. -/
theorem openRows_take_ne_nil (called : m.Calls path rows) :
    ∀ n < path.length, openRows m.rows (path.take n) ≠ [] := by
  induction called with
  | root => simp
  | @branch path rows sign caller rowsLeft columnsLeft ih =>
      intro n before
      rw [List.length_append, List.length_singleton] at before
      rw [List.take_append_of_le_length (by omega)]
      by_cases last : n = path.length
      · rwa [last, List.take_length, ← caller.rows_eq]
      · exact ih n (by omega)

end Calls

/-- Choices along which rows stay open lead from call to call. -/
theorem calls_openRows {m : ClauseMatrix} {path : Assignment} (within : path.length ≤ m.width)
    (openBefore : ∀ n < path.length, openRows m.rows (path.take n) ≠ []) :
    m.Calls path (openRows m.rows path) := by
  -- The last choice is the one that the caller makes.
  induction path using List.reverseRecOn with
  | nil => simpa using Calls.root
  | append_singleton path sign ih =>
      rw [List.length_append, List.length_singleton] at within openBefore
      have rowsLeft : openRows m.rows path ≠ [] := by
        simpa using openBefore path.length (Nat.lt_succ_self _)
      have caller : m.Calls path (openRows m.rows path) := by
        apply ih (by omega)
        intro n before
        have openEarlier := openBefore n (by omega)
        rwa [List.take_append_of_le_length (Nat.le_of_lt before)] at openEarlier
      rw [← residual_openRows]
      exact caller.branch sign rowsLeft (by omega)

theorem subtree?_split_eq_some_iff {m : ClauseMatrix} {path : Assignment} {tree : DecisionTree} :
    m.split.subtree? path = some tree ↔
      m.Calls path (openRows m.rows path) ∧
        splitRows path.length (openRows m.rows path) (m.width - path.length) = tree := by
  have node := @subtree?_splitRows_eq_some_iff m.rows [] path m.width tree
  rw [openRows_nil] at node
  rw [split]
  refine node.trans (and_congr_left' ?_)
  apply Iff.intro
  · intro bounds
    exact calls_openRows bounds.1 bounds.2
  · intro called
    exact ⟨called.length_le, called.openRows_take_ne_nil⟩

theorem openRows_eq_filter (rows : List Row) (path : Assignment) :
    openRows rows path = rows.filter fun row =>
      ∀ (column : Nat) (chosen : column < path.length),
        row[column]? ≠ some (some path[column]) := by
  apply congrArg fun keep => rows.filter keep
  funext row
  rw [Bool.eq_iff_iff, Bool.not_eq_true', Row.satisfiedBy_eq_false_iff, decide_eq_true_iff]

/-- A case split makes a call for each node of its tree, and none besides. The call that a path
of choices leads to gets the rows of the matrix in their order, repeated ones repeated, that
have in none of the columns passed the sign chosen there. It has answered before its calls are
nested deeper than the columns left, its answer is the tree at that node, and the answer is
positive exactly when signs for the columns left satisfy every row that it got. -/
theorem calls_get_open_rows_and_decide_them (m : ClauseMatrix) (path : Assignment) :
    (∀ rows, m.Calls path rows ↔
      (m.split.subtree? path).isSome = true ∧
        rows = m.rows.filter fun row => ∀ (column : Nat) (chosen : column < path.length),
          row[column]? ≠ some (some path[column])) ∧
      ∀ rows, m.Calls path rows →
        path.length ≤ m.width ∧ ∃ tree, m.split.subtree? path = some tree ∧
          splitWithin m.width (m.width - path.length) path.length rows = .ok tree ∧
            (tree.satisfiable = true ↔
              ∃ rest : Assignment, rest.length = m.width - path.length ∧
                ∀ row ∈ rows, Row.satisfiedBy (row.drop path.length) rest = true) := by
  refine ⟨fun rows => ?_, fun rows called => ?_⟩
  · rw [← openRows_eq_filter, Option.isSome_iff_exists]
    simp only [subtree?_split_eq_some_iff, exists_and_left, exists_eq', and_true]
    apply Iff.intro
    · intro called
      exact ⟨called.rows_eq ▸ called, called.rows_eq⟩
    · intro called
      exact called.2 ▸ called.1
  · have ends : splitWithin m.width (m.width - path.length) path.length rows =
        .ok (splitRows path.length rows (m.width - path.length)) :=
      splitWithin_of_even (Nat.add_sub_cancel' called.length_le) called.length_row
    obtain rfl := called.rows_eq
    refine ⟨called.length_le, _, subtree?_split_eq_some_iff.mpr ⟨called, rfl⟩, ends, ?_⟩
    rw [satisfiable_splitRows_iff]
    simp only [forall_satisfiedBy_append_iff]

end ClauseMatrix

end Clausal
