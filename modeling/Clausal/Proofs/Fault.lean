/-
# The first fault

Reading and encoding go through a list and stop at the first item at fault, and the
error is the fault of that item. A step of this kind gives its value unless there is
a fault, and then so does the whole traversal.
-/

namespace Clausal

/-- A value, unless there is a fault. -/
def okUnless {ε α : Type} (fault : Option ε) (value : α) : Except ε α :=
  match fault with
  | some cause => .error cause
  | none => .ok value

section okUnless

variable {ε α β : Type}

theorem okUnless_eq_ok_iff {fault : Option ε} {value a : α} :
    okUnless fault value = .ok a ↔ fault = none ∧ value = a := by
  cases fault <;> simp [okUnless]

theorem okUnless_eq_error_iff {fault : Option ε} {value : α} {cause : ε} :
    okUnless fault value = .error cause ↔ fault = some cause := by
  cases fault <;> simp [okUnless]

theorem isOk_okUnless_iff {fault : Option ε} {value : α} :
    (okUnless fault value).isOk = true ↔ fault = none := by
  cases fault <;> simp [okUnless, Except.isOk, Except.toBool]

theorem map_okUnless (fault : Option ε) (value : α) (g : α → β) :
    (okUnless fault value).map g = okUnless fault (g value) := by
  cases fault <;> rfl

/-- A traversal fails with the first fault in the list. -/
theorem mapM_okUnless (fault? : α → Option ε) (value : α → β) (as : List α) :
    as.mapM (fun a => okUnless (fault? a) (value a)) =
      okUnless (as.findSome? fault?) (as.map value) := by
  induction as with
  | nil => rfl
  | cons a as ih =>
      rw [List.mapM_cons, ih, List.findSome?_cons]
      cases fault? a with
      | some cause => rfl
      | none => cases as.findSome? fault? <;> rfl

end okUnless

section numbered

variable {α β : Type} (found? : α → Nat → Option β) {as : List α}

/-- Where the items are numbered, the first find has as its number the length of what comes
before it. -/
theorem exists_of_findSome?_zipIdx_eq_some {b : β}
    (first : (as.zipIdx.findSome? fun numbered => found? numbered.1 numbered.2) = some b) :
    ∃ before a after, as = before ++ a :: after ∧ found? a before.length = some b ∧
      ∀ (i : Nat) (earlier : α), before[i]? = some earlier → found? earlier i = none := by
  rcases List.findSome?_eq_some_iff.mp first with ⟨earlier, ⟨a, i⟩, later, split, found, missed⟩
  rcases List.zipIdx_eq_append_iff.mp split with ⟨before, rest, whole, rfl, ending⟩
  rcases List.zipIdx_eq_cons_iff.mp ending.symm with ⟨_, after, rfl, numbered, -⟩
  obtain ⟨rfl, rfl⟩ := Prod.mk.inj numbered
  rw [Nat.zero_add] at found
  refine ⟨before, a, after, whole, found, ?_⟩
  intro i earlier place
  exact missed (earlier, i) (List.mk_mem_zipIdx_iff_getElem?.mpr place)

/-- Nothing is found when there is no find at any place. -/
theorem findSome?_zipIdx_eq_none_iff :
    (as.zipIdx.findSome? fun numbered => found? numbered.1 numbered.2) = none ↔
      ∀ (i : Nat) (a : α), as[i]? = some a → found? a i = none := by
  simp only [List.findSome?_eq_none_iff, Prod.forall, List.mk_mem_zipIdx_iff_getElem?]
  exact forall_comm

/-- An item comes before the first one that fails a test when it passes the test itself
and so do all before it. -/
theorem mem_takeWhile_zipIdx_iff {passes : α × Nat → Bool} {a : α} {i : Nat} :
    (a, i) ∈ as.zipIdx.takeWhile passes ↔
      as[i]? = some a ∧ ∀ j ≤ i, ∀ b, as[j]? = some b → passes (b, j) = true := by
  have inside : (a, i) ∈ as.zipIdx.takeWhile passes ↔
      i < as.zipIdx.findIdx (fun numbered => !passes numbered) ∧ as[i]? = some a := by
    simp only [List.takeWhile_eq_take_findIdx_not, List.mem_iff_getElem?, List.getElem?_take,
      Option.ite_none_right_eq_some, List.getElem?_zipIdx, Nat.zero_add, Option.map_eq_some_iff,
      Prod.mk.injEq]
    apply Iff.intro
    · intro found
      rcases found with ⟨place, within, _, atPlace, rfl, rfl⟩
      exact ⟨within, atPlace⟩
    · intro found
      exact ⟨i, found.1, a, found.2, rfl, rfl⟩
  rw [inside, List.lt_findIdx_iff]
  simp only [Bool.not_eq_false', List.getElem_zipIdx, List.length_zipIdx, Nat.zero_add]
  apply Iff.intro
  · intro reached
    rcases reached with ⟨⟨_, holds⟩, place⟩
    refine ⟨place, fun j within b there => ?_⟩
    obtain ⟨_, rfl⟩ := List.getElem?_eq_some_iff.mp there
    exact holds j within
  · intro reached
    rcases reached with ⟨place, holds⟩
    obtain ⟨short, -⟩ := List.getElem?_eq_some_iff.mp place
    exact ⟨⟨short, fun j within =>
      holds j within _ (List.getElem?_eq_getElem (Nat.lt_of_le_of_lt within short))⟩, place⟩

/-- What is found first is found at the first place where there is a find. -/
theorem findSome?_zipIdx_eq_some_iff {b : β} :
    (as.zipIdx.findSome? fun numbered => found? numbered.1 numbered.2) = some b ↔
      ∃ i a, as[i]? = some a ∧ found? a i = some b ∧
        ∀ j < i, ∀ earlier, as[j]? = some earlier → found? earlier j = none := by
  have firstPlace {b : β}
      (first : (as.zipIdx.findSome? fun numbered => found? numbered.1 numbered.2) = some b) :
      ∃ i a, as[i]? = some a ∧ found? a i = some b ∧
        ∀ j < i, ∀ earlier, as[j]? = some earlier → found? earlier j = none := by
    obtain ⟨before, a, after, rfl, found, missed⟩ :=
      exists_of_findSome?_zipIdx_eq_some found? first
    refine ⟨before.length, a, by simp, found, fun j inBefore earlier place => ?_⟩
    rw [List.getElem?_append_left inBefore] at place
    exact missed j earlier place
  apply Iff.intro
  · exact firstPlace
  · intro found
    rcases found with ⟨i, a, place, foundHere, missed⟩
    cases first : as.zipIdx.findSome? fun numbered => found? numbered.1 numbered.2 with
    | none =>
        have nowhere := (findSome?_zipIdx_eq_none_iff found?).mp first i a place
        exact absurd (nowhere.symm.trans foundHere) (by simp)
    | some other =>
        obtain ⟨j, earlier, otherPlace, foundThere, otherMissed⟩ := firstPlace first
        -- Two first places are one: each would be missed by a search that ends at the other.
        rcases Nat.lt_trichotomy i j with before | rfl | behind
        · simp [otherMissed i before a place] at foundHere
        · obtain rfl := Option.some_inj.mp (place.symm.trans otherPlace)
          exact foundThere.symm.trans foundHere
        · simp [missed j behind earlier otherPlace] at foundThere

end numbered

end Clausal
