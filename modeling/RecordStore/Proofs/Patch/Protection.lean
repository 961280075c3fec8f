/-
Module: RecordStore.Proofs.Patch.Protection
Purpose: Which fields of a record a patch can reach.  An edit through a path changes the
  record at the root of the path only, in every mode and also when it fails; so a field
  changes only if it may be patched and some key of the patch starts from it.  A patch
  that goes through reports its keys in order, divided by one test of the key alone.
Main exports: Object.ChangedAt, edit_changedAt, Patch.apply_changedAt, Schema.Patchable,
  Schema.acceptsKey, Patch.applyAll_protects
-/
import RecordStore.Proofs.Patch.Effect
import RecordStore.Proofs.Path.WriteLaw

namespace RecordStore

open Json

/-! ### Changes at one key -/

/-- `after` is a record with at most the member of one key written or erased. -/
inductive Object.ChangedAt (key : String) (before : Object) : Object → Prop where
  | kept : ChangedAt key before before
  | written (value : Json) : ChangedAt key before (before.insert key value)
  | erased : ChangedAt key before (before.erase key)

namespace Object.ChangedAt

variable {key : String} {before after : Object}

theorem nodup_keys (change : ChangedAt key before after) (distinct : before.keys.Nodup) :
    after.keys.Nodup := by
  cases change with
  | kept => exact distinct
  | written value => exact nodup_keys_insert distinct key value
  | erased => exact nodup_keys_erase distinct key

theorem get?_of_ne (change : ChangedAt key before after) (distinct : before.keys.Nodup)
    {other : String} (apart : other ≠ key) : after.get? other = before.get? other := by
  cases change with
  | kept => rfl
  | written value => exact get?_insert_of_ne before value apart
  | erased => exact get?_erase_of_ne distinct apart

end Object.ChangedAt

/-- An edit that changes the owner of a member at that member only. -/
def Edit.Confined {α : Type} (edit : Edit α) : Prop :=
  ∀ owner key, ∃ after, (edit (.member owner key)).2 = .obj after ∧
    Object.ChangedAt key owner after

/-- The writing walk changes a record at the first name only. -/
theorem descendTo_changedAt {α : Type} {edit : Edit α} (confined : edit.Confined)
    (path : FieldPath) (record : Object) (key : String) (rest : List Segment) :
    ∃ after, (descendTo path edit (.obj record) (.name key :: rest)).2 = .obj after ∧
      Object.ChangedAt key record after := by
  cases rest with
  | nil => exact confined record key
  | cons next more =>
      rw [descendTo_cons]
      cases entered : enterStep path (.obj record) (.name key) next with
      | error error => exact ⟨record, rfl, .kept⟩
      | ok reached =>
          obtain ⟨step, inner⟩ := reached
          obtain ⟨rfl, -, -⟩ := enterStep_ok entered
          exact ⟨_, rfl, .written _⟩

/-- An edit through a path changes the record at the root of the path only, whether it
succeeds or fails. -/
theorem edit_changedAt {α : Type} {edit : Edit α} (confined : edit.Confined) (record : Object)
    (path : FieldPath) : Object.ChangedAt path.root record (record.edit path edit).2 := by
  unfold Object.edit
  cases checkWritable record path with
  | error error => exact .kept
  | ok done =>
      cases steps : path.segments with
      | nil => exact .kept
      | cons first rest =>
          cases first with
          | name key =>
              obtain ⟨after, left, change⟩ := descendTo_changedAt confined path record key rest
              have root : path.root = key := by simp [FieldPath.root, steps, Segment.name?]
              simp only [left, root]
              exact change
          | index index => cases rest <;> exact .kept
          | element other text => cases rest <;> exact .kept

theorem set_changedAt (record : Object) (path : FieldPath) (value : Json) :
    Object.ChangedAt path.root record (record.set path value).2 :=
  edit_changedAt (fun _ _ => ⟨_, rfl, .written value⟩) record path

theorem remove_changedAt (record : Object) (path : FieldPath) :
    Object.ChangedAt path.root record (record.remove path).2 := by
  unfold Object.remove
  cases record.lookup? path with
  | none => exact .kept
  | some value => exact edit_changedAt (fun _ _ => ⟨_, rfl, .erased⟩) record path

/-! ### One operand -/

namespace Patch

theorem cover_changedAt (record : Object) (path : FieldPath) (value : Json) :
    Object.ChangedAt path.root record (cover record path value).2 := by
  rw [cover_eq]
  exact set_changedAt record path value

theorem removeAt_changedAt (record : Object) (path : FieldPath) :
    Object.ChangedAt path.root record (removeAt record path).2 := by
  rw [removeAt_eq]
  exact remove_changedAt record path

theorem Effect.changedAt {record : Object} {path : FieldPath} {change : Change Unit}
    (effect : Effect record path change) : Object.ChangedAt path.root record change.2 := by
  cases effect with
  | kept => exact .kept
  | refused fault => exact .kept
  | written value => exact cover_changedAt record path value
  | removed => exact removeAt_changedAt record path

/-- In every mode an operand changes the record at the root of its path only. -/
theorem apply_changedAt (record : Object) (path : FieldPath) (operand : Json) (mode : UpdateMode)
    (resolved : Resolved) :
    Object.ChangedAt path.root record (apply record path operand mode resolved).2 :=
  (apply_effect record path operand resolved mode).changedAt

end Patch

/-! ### Keys of a patch -/

namespace Schema

/-- The fields a patch may change: declared ones and the times of a model that has them,
without the key, virtual relations and fields excluded from updates. -/
def Patchable (schema : Schema) (name : String) : Prop :=
  schema.hasField name = true ∧ name ≠ idField ∧
    ∀ field, schema.field? name = some field →
      field.isVirtual = false ∧ field.excludedFrom .update = false

/-- Whether a patch key is read as a path that may be patched and has a type. -/
def acceptsKey (schema : Schema) (key : String) : Bool :=
  match schema.path key with
  | .error _ => false
  | .ok path => !Patch.isProtected schema path && (schema.resolve? path).isSome

theorem not_isProtected_iff {schema : Schema} {path : FieldPath} :
    Patch.isProtected schema path = false ↔
      path.root ≠ idField ∧ ∀ field, schema.field? path.root = some field →
        field.isVirtual = false ∧ field.excludedFrom .update = false := by
  unfold Patch.isProtected
  cases schema.field? path.root with
  | none => simp
  | some field => simp

/-- A path with a type starts from a name. -/
theorem steps_of_resolve? {schema : Schema} {path : FieldPath} {resolved : Resolved}
    (resolves : schema.resolve? path = some resolved) :
    ∃ rest, path.segments = .name path.root :: rest := by
  unfold resolve? at resolves
  split at resolves
  · rename_i name rest steps
    have root : path.root = name := by simp [FieldPath.root, steps, Segment.name?]
    exact ⟨rest, by rw [root, steps]⟩
  · cases resolves

/-- A path with a type starts from a field of the model. -/
theorem hasField_of_resolve? {schema : Schema} {path : FieldPath} {resolved : Resolved}
    (resolves : schema.resolve? path = some resolved) : schema.hasField path.root = true := by
  obtain ⟨rest, steps⟩ := steps_of_resolve? resolves
  unfold hasField
  cases declared : schema.field? path.root with
  | some field => rfl
  | none =>
      cases implicit : schema.implicitType? path.root with
      | some type => rfl
      | none => simp [resolve?, steps, cursor?, declared, implicit] at resolves

theorem acceptsKey_iff {schema : Schema} {key : String} :
    schema.acceptsKey key = true ↔
      ∃ path, schema.path key = .ok path ∧ schema.Patchable path.root ∧
        (schema.resolve? path).isSome = true := by
  unfold acceptsKey
  cases read : schema.path key with
  | error error => simp
  | ok path =>
      simp only [Bool.and_eq_true, Bool.not_eq_true', Except.ok.injEq, exists_eq_left']
      constructor
      · rintro ⟨open_, resolves⟩
        obtain ⟨resolved, found⟩ := Option.isSome_iff_exists.mp resolves
        exact ⟨⟨hasField_of_resolve? found, not_isProtected_iff.mp open_⟩, resolves⟩
      · rintro ⟨⟨-, patchable⟩, resolves⟩
        exact ⟨not_isProtected_iff.mpr patchable, resolves⟩

end Schema

namespace Patch

variable (schema : Schema) (mode : UpdateMode) (policy : UnknownFieldPolicy)

/-- A pair either keeps the record or leaves what its operand makes of it. -/
theorem applyPair_record (record : Object) (key : String) (operand : Json) :
    (applyPair schema mode policy record key operand).2 = record ∨
      ∃ path resolved, schema.path key = .ok path ∧ isProtected schema path = false ∧
        schema.resolve? path = some resolved ∧
        (applyPair schema mode policy record key operand).2 =
          (apply record path operand mode resolved).2 := by
  unfold applyPair
  split
  · exact .inl rfl
  · rename_i path read
    split
    · exact .inl rfl
    · rename_i unprotected
      split
      · cases policy <;> exact .inl rfl
      · rename_i resolved resolves
        refine .inr ⟨path, resolved, read, by simpa using unprotected, resolves, ?_⟩
        rcases apply record path operand mode resolved with ⟨answer, after⟩
        cases answer <;> rfl

/-- A pair either keeps the record or changes it at a patchable root of its key. -/
theorem applyPair_cases (record : Object) (key : String) (operand : Json) :
    (applyPair schema mode policy record key operand).2 = record ∨
      ∃ path, schema.path key = .ok path ∧ schema.Patchable path.root ∧
        Object.ChangedAt path.root record (applyPair schema mode policy record key operand).2 := by
  rcases applyPair_record schema mode policy record key operand with
    kept | ⟨path, resolved, read, unprotected, resolves, left⟩
  · exact .inl kept
  · have patchable : schema.Patchable path.root :=
      ⟨Schema.hasField_of_resolve? resolves, Schema.not_isProtected_iff.mp unprotected⟩
    rw [left]
    exact .inr ⟨path, read, patchable, apply_changedAt record path operand mode resolved⟩

/-- A pair that goes through is applied exactly when its key is accepted. -/
theorem applyPair_ok {record after : Object} {key : String} {operand : Json} {applied : Bool}
    (done : applyPair schema mode policy record key operand = (.ok applied, after)) :
    applied = schema.acceptsKey key := by
  unfold applyPair at done
  unfold Schema.acceptsKey
  cases read : schema.path key with
  | error error => rw [read] at done; cases done
  | ok path =>
      simp only [read] at done
      cases guarded : isProtected schema path with
      | true =>
          simp only [guarded, if_true] at done
          cases done
          simp [guarded]
      | false =>
          simp only [guarded] at done
          cases resolves : schema.resolve? path with
          | none =>
              rw [resolves] at done
              cases policy <;> cases done
              simp [resolves]
          | some resolved =>
              rcases outcome : apply record path operand mode resolved with ⟨answer, left⟩
              cases answer <;> simp [resolves, outcome] at done
              simp [guarded, resolves, done.1]

/-- A pair changes no field that its key does not start from, and keeps keys distinct. -/
theorem applyPair_frame {record : Object} (distinct : record.keys.Nodup) (key : String)
    (operand : Json) :
    (applyPair schema mode policy record key operand).2.keys.Nodup ∧
      ∀ name, (applyPair schema mode policy record key operand).2.get? name ≠ record.get? name →
        schema.Patchable name ∧ ∃ path, schema.path key = .ok path ∧ path.root = name := by
  rcases applyPair_cases schema mode policy record key operand with
    kept | ⟨path, read, patchable, change⟩
  · rw [kept]
    exact ⟨distinct, fun name changed => absurd rfl changed⟩
  · refine ⟨change.nodup_keys distinct, fun name changed => ?_⟩
    have root : name = path.root := by
      by_cases same : name = path.root
      · exact same
      · exact absurd (change.get?_of_ne distinct same) changed
    subst root
    exact ⟨patchable, path, read, rfl⟩

/-- A patch changes no field but patchable ones that some key of it starts from. -/
theorem applyAll_frame {record : Object} (distinct : record.keys.Nodup) (patch : Object) :
    (applyAll schema mode policy record patch).2.keys.Nodup ∧
      ∀ name, (applyAll schema mode policy record patch).2.get? name ≠ record.get? name →
        schema.Patchable name ∧
          ∃ entry ∈ patch, ∃ path, schema.path entry.1 = .ok path ∧ path.root = name := by
  induction patch generalizing record with
  | nil => exact ⟨distinct, fun name changed => absurd rfl changed⟩
  | cons entry rest ih =>
      obtain ⟨key, operand⟩ := entry
      have first := applyPair_frame schema mode policy distinct key operand
      rcases pair : applyPair schema mode policy record key operand with ⟨answer, between⟩
      rw [pair] at first
      obtain ⟨still, one⟩ := first
      have head {name : String} (changed : between.get? name ≠ record.get? name) :
          schema.Patchable name ∧ ∃ entry ∈ (key, operand) :: rest,
            ∃ path, schema.path entry.1 = .ok path ∧ path.root = name := by
        obtain ⟨patchable, path, read, root⟩ := one name changed
        exact ⟨patchable, _, .head _, path, read, root⟩
      cases answer with
      | error error =>
          rw [applyAll_cons_error pair]
          exact ⟨still, fun name changed => head changed⟩
      | ok applied =>
          obtain ⟨last, more⟩ := ih still
          rw [(applyAll_cons_ok pair rest).2]
          refine ⟨last, fun name changed => ?_⟩
          by_cases same : between.get? name = record.get? name
          · rw [← same] at changed
            obtain ⟨patchable, entry, mem, found⟩ := more name changed
            exact ⟨patchable, entry, .tail _ mem, found⟩
          · exact head same

/-- A patch that goes through reports its keys in order, divided by `acceptsKey`. -/
theorem applyAll_report {record after : Object} {patch : Object} {report : PatchReport}
    (done : applyAll schema mode policy record patch = (.ok report, after)) :
    report.applied = patch.keys.filter schema.acceptsKey ∧
      report.skipped = patch.keys.filter fun key => !schema.acceptsKey key := by
  induction patch generalizing record report with
  | nil =>
      cases done
      exact ⟨rfl, rfl⟩
  | cons entry rest ih =>
      obtain ⟨key, operand⟩ := entry
      obtain ⟨applied, between, more, pair, later, rfl⟩ := applyAll_cons_eq_ok_iff.mp done
      obtain rfl := applyPair_ok schema mode policy pair
      obtain ⟨appliedLater, skippedLater⟩ := ih later
      cases accepted : schema.acceptsKey key <;>
        simp [PatchReport.cons, Object.keys, accepted, appliedLater, skippedLater]

/-- No patch changes a protected field of a record, in which no key occurs twice: in every
mode, and also when it stops at an error, a field that reads differently may be patched and
is the root of some key of the patch.  When it goes through, the keys are reported in order,
each of them as applied or as skipped, and applied are those with a patchable root and a
type. -/
theorem applyAll_protects {record : Object} (distinct : record.keys.Nodup) (patch : Object) :
    (∀ name, (applyAll schema mode policy record patch).2.get? name ≠ record.get? name →
      schema.Patchable name ∧
        ∃ entry ∈ patch, ∃ path, schema.path entry.1 = .ok path ∧ path.root = name) ∧
    (∀ report, (applyAll schema mode policy record patch).1 = .ok report →
      report.applied = patch.keys.filter schema.acceptsKey ∧
      report.skipped = patch.keys.filter (fun key => !schema.acceptsKey key) ∧
      ∀ key ∈ patch.keys, (key ∈ report.applied ↔ key ∉ report.skipped)) ∧
    ∀ key, schema.acceptsKey key = true ↔
      ∃ path, schema.path key = .ok path ∧ schema.Patchable path.root ∧
        (schema.resolve? path).isSome = true := by
  refine ⟨(applyAll_frame schema mode policy distinct patch).2, ?_, fun key => Schema.acceptsKey_iff⟩
  intro report done
  obtain ⟨applied, skipped⟩ := applyAll_report schema mode policy (Prod.ext done rfl)
  refine ⟨applied, skipped, ?_⟩
  intro key mem
  simp [applied, skipped, mem]

/-- Deleting removes a field that may be patched; a field excluded from updates, the key of
the record and an unknown field stay as they are and are reported as skipped. -/
theorem applyAll_protects_deleted :
    let frozen : Field := .scalar .number { Traits.plain with excluded := [.update] }
    let schema : Schema :=
      ⟨"account", [("meta", .scalar .object Traits.plain), ("balance", frozen)], false, Hooks.none⟩
    let record : Object := [("id", .str "u1"), ("meta", .obj []), ("balance", .int 5)]
    let patch : Object :=
      [("balance.", .null), ("meta", .null), ("id", .null), ("ghost[0]", .null)]
    let report : PatchReport := ⟨["meta"], ["balance.", "id", "ghost[0]"]⟩
    let after : Object := [("id", .str "u1"), ("balance", .int 5)]
    record.keys.Nodup ∧ applyAll schema .delete .skip record patch = (.ok report, after) ∧
      schema.Patchable "meta" ∧ report.applied = patch.keys.filter schema.acceptsKey := by
  intro frozen schema record patch report after
  have distinct : record.keys.Nodup := by decide
  have done : applyAll schema .delete .skip record patch = (.ok report, after) := rfl
  obtain ⟨changes, reports, -⟩ := applyAll_protects schema .delete .skip distinct patch
  have gone : (applyAll schema .delete .skip record patch).2.get? "meta" ≠ record.get? "meta" := by
    rw [done]
    simp [after, record, Object.get?]
  exact ⟨distinct, done, (changes "meta" gone).1, (reports report (by rw [done])).1⟩

end Patch

end RecordStore
