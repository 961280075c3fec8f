/-
Module: RecordStore.Proofs.Patch.Effect
Purpose: All that applying one operand can come to.  Whatever the mode and the declared type
  are, the record is kept, a value is refused, one value is written at the path, or what
  the path addresses is taken out; there is never a second write.  And what the first pair of a
  patch means for the whole of it.
Main exports: Patch.Effect, Patch.apply_effect, Patch.cover_eq, Patch.cover_eq_ok_iff,
  Patch.cover_eq_error_iff, Patch.removeAt_eq, Patch.applyAll_cons_eq_ok_iff
-/
import RecordStore.Patch.Update

namespace RecordStore.Patch

/-- A change that makes at most one edit of a record, at a path. -/
inductive Effect (record : Object) (path : FieldPath) : Change Unit → Prop where
  | kept : Effect record path (.ok (), record)
  | refused (fault : ValueFault) : Effect record path (refuse record path fault)
  | written (value : Json) : Effect record path (cover record path value)
  | removed : Effect record path (removeAt record path)

variable (record : Object) (path : FieldPath) (operand : Json) (resolved : Resolved)

/-- Covering is writing, with the error of the path as an error of the patch. -/
theorem cover_eq (value : Json) :
    cover record path value =
      ((record.set path value).1.mapError .path, (record.set path value).2) := by
  unfold cover
  rcases record.set path value with ⟨answer, after⟩
  cases answer <;> rfl

/-- A value is covered when it is written. -/
theorem cover_eq_ok_iff {value : Json} {after : Object} :
    cover record path value = (.ok (), after) ↔ record.set path value = (.ok (), after) := by
  unfold cover
  rcases record.set path value with ⟨answer, left⟩
  cases answer <;> simp

/-- A value cannot be covered when the path cannot be written. -/
theorem cover_eq_error_iff {value : Json} {error : PatchError} {after : Object} :
    cover record path value = (.error error, after) ↔
      ∃ fault, error = .path fault ∧ record.set path value = (.error fault, after) := by
  unfold cover
  rcases record.set path value with ⟨answer, left⟩
  cases answer with
  | ok done => simp
  | error refusal =>
      simp only [Prod.mk.injEq, Except.error.injEq]
      constructor
      · rintro ⟨rfl, rfl⟩
        exact ⟨refusal, rfl, rfl, rfl⟩
      · rintro ⟨_, rfl, rfl, rfl⟩
        exact ⟨rfl, rfl⟩

theorem removeAt_eq :
    removeAt record path =
      (((record.remove path).1.map fun _ => ()).mapError .path, (record.remove path).2) := by
  unfold removeAt
  rcases record.remove path with ⟨answer, after⟩
  cases answer <;> rfl

theorem appendItems_effect : Effect record path (appendItems record path operand) := by
  unfold appendItems
  split
  · exact .written _
  · exact .written _
  · exact .refused .storedNotAnArray

theorem appendNumber_effect : Effect record path (appendNumber record path operand) := by
  unfold appendNumber
  split
  · exact .refused .operandNotANumber
  · split
    · exact .refused .storedNotANumber
    · split
      · exact .refused .sumNotFinite
      · exact .written _

theorem append_effect : Effect record path (append record path operand resolved) := by
  unfold append
  split
  · exact appendItems_effect record path operand
  · split
    · exact .written _
    · split
      · exact appendNumber_effect record path operand
      · split
        · exact .kept
        · exact .written operand

theorem deleteItem_effect : Effect record path (deleteItem record path operand) := by
  unfold deleteItem
  split
  · split
    · exact .written _
    · exact .kept
  · exact .kept

theorem delete_effect : Effect record path (delete record path operand resolved) := by
  unfold delete
  split
  · exact .removed
  · split
    · exact deleteItem_effect record path operand
    · split
      · exact .written _
      · split
        · exact .written _
        · exact .removed

theorem merge_effect : Effect record path (merge record path operand resolved) := by
  unfold merge
  split
  · exact .kept
  · split
    · exact .written _
    · exact .refused .operandNotAnObject

/-- In every mode an operand comes to at most one edit, at its path. -/
theorem apply_effect (mode : UpdateMode) :
    Effect record path (apply record path operand mode resolved) := by
  cases mode with
  | cover => exact .written operand
  | append => exact append_effect record path operand resolved
  | delete => exact delete_effect record path operand resolved
  | merge => exact merge_effect record path operand resolved

/-! ### The first pair of a patch -/

section Cons

variable {schema : Schema} {mode : UpdateMode} {policy : UnknownFieldPolicy}
variable {record between : Object} {key : String} {operand : Json}

/-- A patch goes through when its first pair does, and the others do on the record it leaves. -/
theorem applyAll_cons_eq_ok_iff {rest after : Object} {report : PatchReport} :
    applyAll schema mode policy record ((key, operand) :: rest) = (.ok report, after) ↔
      ∃ applied between more,
        applyPair schema mode policy record key operand = (.ok applied, between) ∧
          applyAll schema mode policy between rest = (.ok more, after) ∧
          PatchReport.cons key applied more = report := by
  rw [applyAll]
  rcases applyPair schema mode policy record key operand with ⟨answer, between⟩
  cases answer with
  | error error => simp
  | ok applied =>
      dsimp only
      rcases later : applyAll schema mode policy between rest with ⟨outcome, last⟩
      constructor
      · intro done
        cases outcome with
        | error error => cases done
        | ok more =>
            cases done
            exact ⟨applied, between, more, rfl, later, rfl⟩
      · rintro ⟨_, _, more, ⟨⟩, others, rfl⟩
        cases later.symm.trans others
        rfl

/-- A first pair that goes through is followed by the others, on the record it leaves. -/
theorem applyAll_cons_ok {applied : Bool}
    (first : applyPair schema mode policy record key operand = (.ok applied, between))
    (rest : Object) :
    ((∃ report, (applyAll schema mode policy record ((key, operand) :: rest)).1 = .ok report) ↔
        ∃ report, (applyAll schema mode policy between rest).1 = .ok report) ∧
      (applyAll schema mode policy record ((key, operand) :: rest)).2 =
        (applyAll schema mode policy between rest).2 := by
  simp only [applyAll, first]
  rcases applyAll schema mode policy between rest with ⟨answer, last⟩
  cases answer <;> simp

theorem applyAll_cons_error {error : PatchError}
    (first : applyPair schema mode policy record key operand = (.error error, between))
    (rest : Object) :
    applyAll schema mode policy record ((key, operand) :: rest) = (.error error, between) := by
  simp only [applyAll, first]

end Cons

end RecordStore.Patch
