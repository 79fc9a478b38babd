/-
# Access to rows

A matrix comes from rows that are given or from a formula, and both ways see to it that every
row has a cell for each column. Given rows are measured. The rows of a formula are not: they
are made as long as there are columns, and after that cells are only read and written in places.

To see that no place is behind the end of its row, the encoder is run on rows without any bound
on their length, and asks before each access. It is the encoder of the matrix module all the
same, so it never finds such a place, and the rows that it makes are all of one length.
-/

import Clausal.Proofs.Matrix.Encoding

namespace Clausal

/-- What stops an encoder that asks before each access. -/
inductive EncodingFault where
  /-- A place is behind the end of its row. -/
  | outOfRange (column cells : Nat)
  /-- The formula has no matrix. -/
  | refused (cause : FormulaError)
deriving DecidableEq

section inRange

variable {α β γ : Type}

/-- The outcome of a run that stays in range, with less known of its value. -/
def inRange (forget : α → β) : Except FormulaError α → Except EncodingFault β
  | .ok value => .ok (forget value)
  | .error cause => .error (.refused cause)

theorem inRange_eq_ok_iff {forget : α → β} {result : Except FormulaError α} {b : β} :
    inRange forget result = .ok b ↔ ∃ value, result = .ok value ∧ forget value = b := by
  cases result <;> simp [inRange]

variable {forget : α → β}

/-- Steps that stay in range make a run that does. -/
theorem foldlM_inRange {step : α → γ → Except FormulaError α}
    {other : β → γ → Except EncodingFault β}
    (stays : ∀ value item, other (forget value) item = inRange forget (step value item))
    (items : List γ) (value : α) :
    items.foldlM other (forget value) = inRange forget (items.foldlM step value) := by
  induction items generalizing value with
  | nil => rfl
  | cons item items ih =>
      rw [List.foldlM_cons, List.foldlM_cons, stays]
      cases step value item with
      | error cause => rfl
      | ok next => exact ih next

theorem mapM_inRange (step : γ → Except FormulaError α) (items : List γ) :
    (items.mapM fun item => inRange forget (step item)) =
      inRange (List.map forget) (items.mapM step) := by
  induction items with
  | nil => rfl
  | cons item items ih =>
      rw [List.mapM_cons, List.mapM_cons, ih]
      cases step item with
      | error cause => rfl
      | ok value => cases items.mapM step <;> rfl

end inRange

/-- A row in the making, of any length. -/
structure BareDraft where
  cells : Row
  tautological : Bool
deriving DecidableEq

/-- The draft without the bound on its row. -/
def Draft.bare {width : Nat} (draft : Draft width) : BareDraft :=
  ⟨draft.cells, draft.tautological⟩

namespace BareDraft

variable (columns : List Variable) (policy : TautologyPolicy) (clause : Nat)

/-- Write one literal of a clause into its place, if the row has that place. -/
def put (draft : BareDraft) (l : Literal) : Except EncodingFault BareDraft :=
  match columns.idxOf? l.var with
  | none => .error (.refused (.malformed (.outsideColumns clause l.var)))
  | some column =>
      match draft.cells[column]? with
      | none => .error (.outOfRange column draft.cells.length)
      | some none => .ok { draft with cells := draft.cells.set column (some l.sign) }
      | some (some sign) =>
          if sign = l.sign then .ok draft
          else match policy with
            | .reject => .error (.refused (.inconsistentClause clause l.var))
            | .drop => .ok { draft with tautological := true }

/-- The draft of a whole clause, from a row of absent cells. -/
def ofClause (c : Clause) : Except EncodingFault BareDraft :=
  c.literals.foldlM (put columns policy clause) ⟨List.replicate columns.length none, false⟩

/-- The place of a variable is in every row with a cell for each column. -/
theorem put_bare (draft : Draft columns.length) (l : Literal) :
    put columns policy clause draft.bare l =
      inRange Draft.bare (draft.put columns policy clause l) := by
  cases found : columns.idxOf? l.var with
  | none => simp only [put, Draft.put, found, inRange]
  | some column =>
      obtain ⟨inside, -, -⟩ := List.idxOf?_eq_some_iff.mp found
      have inRow : column < draft.cells.length := by rwa [draft.length_cells]
      simp only [put, Draft.put, Draft.bare, found, List.getElem?_eq_getElem inRow,
        Option.join_some]
      cases draft.cells[column] with
      | none => rfl
      | some sign =>
          by_cases same : sign = l.sign
          · simp only [same, if_true]
            rfl
          · simp only [same, if_false]
            cases policy <;> rfl

/-- A shorter row may lack the place of a variable that has a column. -/
example : put [⟨1, by decide⟩, ⟨2, by decide⟩] .drop 0 ⟨[none], false⟩ (.positive ⟨2, by decide⟩) =
    .error (.outOfRange 1 1) :=
  rfl

theorem ofClause_eq (c : Clause) :
    ofClause columns policy clause c =
      inRange Draft.bare (Draft.ofClause columns policy clause c) :=
  foldlM_inRange (put_bare columns policy clause) c.literals (Draft.empty columns.length)

end BareDraft

/-- The width and the rows of a formula's matrix, made of rows without a bound. -/
def bareEncode (columns : List Variable) (f : Formula) (policy : TautologyPolicy) :
    Except EncodingFault (Nat × List Row) :=
  if Variable.ascending columns then do
    let drafts ← f.clauses.zipIdx.mapM fun (c, clause) =>
      BareDraft.ofClause columns policy clause c
    return (columns.length, (drafts.filter fun draft => !draft.tautological).map BareDraft.cells)
  else .error (.refused (.malformed .columnsNotAscending))

namespace ClauseMatrix

theorem rows_ofDrafts {width : Nat} (drafts : List (Draft width)) :
    (ofDrafts drafts).rows =
      ((drafts.map Draft.bare).filter fun draft => !draft.tautological).map BareDraft.cells := by
  rw [ofDrafts, List.filter_map, List.map_map]
  rfl

/-- An encoder that asks before each access never finds a place behind the end of its row. -/
theorem bareEncode_eq (columns : List Variable) (f : Formula) (policy : TautologyPolicy) :
    bareEncode columns f policy =
      inRange (fun m : ClauseMatrix => (m.width, m.rows)) (encode columns f policy) := by
  rw [bareEncode, encode, Encoding.ofFormula]
  by_cases ascending : Variable.ascending columns
  · rw [if_pos ascending, if_pos ascending]
    simp only [BareDraft.ofClause_eq, mapM_inRange, Encoding.drafts, List.mapM_map,
      Function.id_comp]
    cases f.clauses.zipIdx.mapM fun (numbered : Clause × Nat) =>
        Draft.ofClause columns policy numbered.2 numbered.1 with
    | error cause => rfl
    | ok drafts =>
        show Except.ok (columns.length, _) = Except.ok (columns.length, (ofDrafts drafts).rows)
        rw [rows_ofDrafts]
  · rw [if_neg ascending, if_neg ascending]
    rfl

/-- The rows of a formula are as long as there are columns. -/
theorem length_of_bareEncode_eq_ok {columns : List Variable} {f : Formula}
    {policy : TautologyPolicy} {width : Nat} {rows : List Row}
    (encoded : bareEncode columns f policy = .ok (width, rows)) :
    width = columns.length ∧ ∀ row ∈ rows, row.length = width := by
  rw [bareEncode_eq, inRange_eq_ok_iff] at encoded
  rcases encoded with ⟨m, encoded, same⟩
  obtain ⟨rfl, rfl⟩ := Prod.mk.inj same
  obtain ⟨-, -, -, rfl⟩ := encode_eq_ok_iff.mp encoded
  exact ⟨rfl, (f.matrix columns).length_row⟩

variable {width : Nat} {rows : List Row}

/-- What measuring finds is the first row that is too short or too long, with its number. -/
theorem find?_ragged_eq_some_iff {row : Row} {i : Nat} :
    (rows.zipIdx.find? fun (row, _) => row.length != width) = some (row, i) ↔
      rows[i]? = some row ∧ row.length ≠ width ∧
        ∀ j < i, ∀ earlier, rows[j]? = some earlier → earlier.length = width := by
  rw [List.find?_eq_some_iff_getElem]
  simp only [List.getElem_zipIdx, Nat.zero_add, Prod.mk.injEq, List.length_zipIdx, bne_iff_ne,
    Bool.not_eq_true', bne_eq_false_iff_eq]
  apply Iff.intro
  · intro found
    rcases found with ⟨ragged, i, inside, ⟨rfl, rfl⟩, even⟩
    refine ⟨List.getElem?_eq_getElem inside, ragged, fun j before earlier place => ?_⟩
    obtain ⟨_, rfl⟩ := List.getElem?_eq_some_iff.mp place
    exact even j before
  · intro found
    rcases found with ⟨place, ragged, even⟩
    obtain ⟨inside, rfl⟩ := List.getElem?_eq_some_iff.mp place
    refine ⟨ragged, i, inside, ⟨rfl, rfl⟩, fun j before => ?_⟩
    exact even j before _ (List.getElem?_eq_getElem (Nat.lt_trans before inside))

/-- Rows are refused for the first of them that is too short or too long. -/
theorem ofRows_eq_error_iff {cause : Malformed} :
    ofRows width rows = .error cause ↔
      ∃ i row, rows[i]? = some row ∧ row.length ≠ width ∧
        (∀ j < i, ∀ earlier, rows[j]? = some earlier → earlier.length = width) ∧
          cause = .raggedRow i row.length width := by
  have measured : ofRows width rows = .error cause ↔
      ∃ i row, (rows.zipIdx.find? fun (row, _) => row.length != width) = some (row, i) ∧
        cause = .raggedRow i row.length width := by
    unfold ofRows
    split
    next row i ragged =>
      simp only [ragged, Except.error.injEq, Option.some.injEq, Prod.mk.injEq]
      apply Iff.intro
      · intro named
        exact ⟨i, row, ⟨rfl, rfl⟩, named.symm⟩
      · intro named
        rcases named with ⟨_, _, ⟨rfl, rfl⟩, rfl⟩
        rfl
    next even => simp [even]
  simp only [measured, find?_ragged_eq_some_iff, and_assoc]

/-- Rows with one cell for each column are just those of a matrix. -/
theorem ofRows_eq_ok_iff {m : ClauseMatrix} :
    ofRows width rows = .ok m ↔
      (∀ row ∈ rows, row.length = width) ∧ m.width = width ∧ m.rows = rows := by
  have unchanged {m : ClauseMatrix} (made : ofRows width rows = .ok m) :
      m.width = width ∧ m.rows = rows := by
    unfold ofRows at made
    split at made
    next => cases made
    next =>
      cases made
      exact ⟨rfl, rfl⟩
  apply Iff.intro
  · intro made
    obtain ⟨rfl, rfl⟩ := unchanged made
    exact ⟨m.length_row, rfl, rfl⟩
  · intro even
    rcases even with ⟨even, sameWidth, sameRows⟩
    cases made : ofRows width rows with
    | error cause =>
        obtain ⟨i, row, place, ragged, -, -⟩ := ofRows_eq_error_iff.mp made
        exact absurd (even row (List.mem_of_getElem? place)) ragged
    | ok other =>
        obtain ⟨rfl, rfl⟩ := unchanged made
        cases m
        cases other
        cases sameWidth
        cases sameRows
        rfl

end ClauseMatrix

end Clausal
