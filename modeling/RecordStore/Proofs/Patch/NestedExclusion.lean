/-
Module: RecordStore.Proofs.Patch.NestedExclusion
Purpose: How far exclusions from updates reach.  A patch asks the field at the root of its path
  whether it may be changed, and no field below it: lifting every exclusion that is declared inside
  nested records changes neither the record that a patch leaves nor its report nor its error.  So
  a field excluded from updates is guarded with everything in it when it is declared on the model
  itself, and not at all when it is declared inside a nested record.
Main exports: Field.lifted, Schema.liftedWithin, Schema.Nests, Schema.resolve?_liftedWithin,
  Patch.applyAll_liftedWithin, Patch.exclusion_guards_roots
-/
import RecordStore.Proofs.Patch.Independence
import RecordStore.Proofs.Schema.Shape
import RecordStore.Schema.Descriptor

namespace RecordStore

/-! ### Lifting exclusions -/

namespace Field

mutual

/-- A field with its exclusions lifted, and those of every field inside it. -/
def lifted : Field → Field
  | .scalar type traits => .scalar type { traits with excluded := [] }
  | .nested name members isList => .nested name (liftedMembers members) isList

/-- Declared fields with all exclusions lifted. -/
def liftedMembers : List (String × Field) → List (String × Field)
  | [] => []
  | (name, declared) :: rest => (name, declared.lifted) :: liftedMembers rest

end

/-- A field that keeps its own exclusions, with those of the fields inside it lifted. -/
def liftedWithin : Field → Field
  | .scalar type traits => .scalar type traits
  | .nested name members isList => .nested name (liftedMembers members) isList

@[simp] theorem type_lifted (declared : Field) : declared.lifted.type = declared.type := by
  cases declared <;> rfl

@[simp] theorem isList_lifted (declared : Field) : declared.lifted.isList = declared.isList := by
  cases declared <;> rfl

@[simp] theorem traits_liftedWithin (declared : Field) :
    declared.liftedWithin.traits = declared.traits := by
  cases declared <;> rfl

theorem liftedMembers_eq_map (members : List (String × Field)) :
    liftedMembers members = members.map fun entry => (entry.1, entry.2.lifted) := by
  induction members with
  | nil => rfl
  | cons entry rest ih => rw [liftedMembers, ih, List.map_cons]

theorem find?_map (change : Field → Field) (members : List (String × Field)) (key : String) :
    find? (members.map fun entry => (entry.1, change entry.2)) key =
      (find? members key).map change := by
  induction members with
  | nil => rfl
  | cons entry rest ih =>
      simp only [List.map_cons, find?, ih]
      split <;> rfl

mutual

/-- Exclusions that were lifted are lifted already. -/
theorem lifted_lifted : ∀ declared : Field, declared.lifted.lifted = declared.lifted
  | .scalar _ _ => rfl
  | .nested name members isList => by
      simp only [lifted, liftedMembers_liftedMembers members]

theorem liftedMembers_liftedMembers : ∀ members : List (String × Field),
    liftedMembers (liftedMembers members) = liftedMembers members
  | [] => rfl
  | (name, declared) :: rest => by
      simp only [liftedMembers, lifted_lifted declared, liftedMembers_liftedMembers rest]

end

theorem lifted_liftedWithin (declared : Field) : declared.liftedWithin.lifted = declared.lifted := by
  cases declared with
  | scalar type traits => rfl
  | nested name members isList => simp only [liftedWithin, lifted, liftedMembers_liftedMembers]

end Field

/-! ### The resolving walk -/

namespace TypeCursor

/-- The same place of a model whose exclusions are lifted. -/
def lifted : TypeCursor → TypeCursor
  | .field declared => .field declared.lifted
  | .element declared => .element declared.lifted
  | .undeclared type => .undeclared type

theorem member?_lifted (declared : Field) (key : String) :
    member? declared.lifted key = (member? declared key).map lifted := by
  cases declared with
  | scalar type traits =>
      simp only [Field.lifted, member?]
      split <;> rfl
  | nested name members isList =>
      simp only [Field.lifted, member?, Field.liftedMembers_eq_map, Field.find?_map, Option.map_map]
      rfl

/-- No step of the walk looks at an exclusion. -/
theorem step?_lifted (cursor : TypeCursor) (segment : Segment) :
    cursor.lifted.step? segment = (cursor.step? segment).map lifted := by
  cases cursor with
  | field declared =>
      cases segment <;> simp only [lifted, step?, Field.isList_lifted, Field.type_lifted] <;>
        repeat' split
      all_goals first | rfl | exact member?_lifted declared _
  | element declared =>
      cases segment <;> simp only [lifted, step?, Field.type_lifted, member?_lifted]
      all_goals split <;> rfl
  | undeclared type =>
      cases segment <;> simp only [lifted, step?] <;> split <;> rfl

theorem walk?_lifted (cursor : TypeCursor) (steps : List Segment) :
    cursor.lifted.walk? steps = (cursor.walk? steps).map lifted := by
  induction steps generalizing cursor with
  | nil => rfl
  | cons segment rest ih =>
      rw [walk?, walk?, step?_lifted]
      cases cursor.step? segment with
      | none => rfl
      | some next => exact ih next

theorem resolved_lifted (descend : Bool) (cursor : TypeCursor) :
    cursor.lifted.resolved descend = cursor.resolved descend := by
  cases cursor <;> simp [lifted, resolved]

end TypeCursor

namespace Schema

/-- A model that keeps the exclusions of its own fields, with those inside its nested records
lifted. -/
def liftedWithin (schema : Schema) : Schema :=
  { schema with fields := schema.fields.map fun entry => (entry.1, entry.2.liftedWithin) }

theorem field?_liftedWithin (schema : Schema) (name : String) :
    schema.liftedWithin.field? name = (schema.field? name).map Field.liftedWithin :=
  Field.find?_map Field.liftedWithin schema.fields name

theorem hasField_liftedWithin (schema : Schema) :
    schema.liftedWithin.hasField = schema.hasField := by
  funext name
  rw [hasField, hasField, field?_liftedWithin, Option.isSome_map]
  rfl

/-- A place of a top-level name is the same, up to exclusions. -/
theorem cursor?_liftedWithin (schema : Schema) (name : String) :
    (schema.liftedWithin.cursor? name).map TypeCursor.lifted =
      (schema.cursor? name).map TypeCursor.lifted := by
  simp only [cursor?, field?_liftedWithin]
  cases schema.field? name with
  | none => rfl
  | some declared =>
      exact congrArg (fun field => some (TypeCursor.field field)) declared.lifted_liftedWithin

/-- The type of a place does not depend on exclusions. -/
theorem resolve?_liftedWithin (schema : Schema) (path : FieldPath) :
    schema.liftedWithin.resolve? path = schema.resolve? path := by
  -- the walk may start anywhere that is the same up to exclusions
  have resolves (start : Option TypeCursor) (steps : List Segment) :
      (start.bind (·.walk? steps)).map (TypeCursor.resolved path.descend) =
        ((start.map TypeCursor.lifted).bind (·.walk? steps)).map
          (TypeCursor.resolved path.descend) := by
    cases start with
    | none => rfl
    | some cursor =>
        simp only [Option.map_some, Option.bind_some, TypeCursor.walk?_lifted, Option.map_map]
        congr 1
        funext last
        exact (last.resolved_lifted path.descend).symm
  unfold resolve?
  split
  · rw [resolves, cursor?_liftedWithin, ← resolves]
  · rfl

end Schema

namespace Patch

variable (schema : Schema) (mode : UpdateMode) (policy : UnknownFieldPolicy)

/-- Whether a path is protected is asked of the field at its root. -/
theorem isProtected_liftedWithin (path : FieldPath) :
    isProtected schema.liftedWithin path = isProtected schema path := by
  simp only [isProtected, Schema.field?_liftedWithin]
  cases schema.field? path.root with
  | none => rfl
  | some declared =>
      simp only [Option.map_some, Field.isVirtual, Field.isRelation, Field.isOwning,
        Field.excludedFrom, Field.traits_liftedWithin]

theorem applyPair_liftedWithin (record : Object) (key : String) (operand : Json) :
    applyPair schema.liftedWithin mode policy record key operand =
      applyPair schema mode policy record key operand := by
  have reads : schema.liftedWithin.path key = schema.path key := by
    rw [Schema.path, Schema.path, Schema.hasField_liftedWithin]
  have named : schema.liftedWithin.name = schema.name := rfl
  simp only [applyPair, reads, isProtected_liftedWithin, Schema.resolve?_liftedWithin, named]

/-- A patch does the same whatever is excluded inside nested records. -/
theorem applyAll_liftedWithin (record patch : Object) :
    applyAll schema.liftedWithin mode policy record patch =
      applyAll schema mode policy record patch := by
  induction patch generalizing record with
  | nil => rfl
  | cons entry rest ih =>
      obtain ⟨key, operand⟩ := entry
      simp only [applyAll, applyPair_liftedWithin, ih]

end Patch

/-! ### Fields inside nested records -/

namespace TypeCursor

/-- A walk that ends on a declared place started on one. -/
theorem isDeclared_of_walk? {cursor last : TypeCursor} {steps : List Segment}
    (walked : cursor.walk? steps = some last) (declared : last.isDeclared) :
    cursor.isDeclared := by
  induction steps generalizing cursor with
  | nil =>
      cases walked
      exact declared
  | cons segment rest ih =>
      obtain ⟨next, stepped, further⟩ := Option.bind_eq_some_iff.mp walked
      have between := ih further
      cases segment with
      | name key =>
          obtain ⟨_, _, _, _, rfl | rfl, -, -⟩ := step?_name_inv stepped between
          · rfl
          · rfl
      | _ =>
          obtain ⟨listed, rfl, -, -⟩ := step?_selector_inv rfl stepped between
          rfl

/-- A walk that steps through a name and ends on a declared place started on a nested record, or
on an element of a list of them. -/
theorem nested_of_walk? {cursor last : TypeCursor} {steps : List Segment} {key : String}
    (walked : cursor.walk? steps = some last) (declared : last.isDeclared)
    (passes : .name key ∈ steps) :
    ∃ name members isList,
      cursor = .field (.nested name members isList) ∨
        cursor = .element (.nested name members isList) := by
  induction steps generalizing cursor with
  | nil => cases passes
  | cons segment rest ih =>
      obtain ⟨next, stepped, further⟩ := Option.bind_eq_some_iff.mp walked
      have between := isDeclared_of_walk? further declared
      cases segment with
      | name other =>
          obtain ⟨name, members, isList, _, here, -, -⟩ := step?_name_inv stepped between
          rcases here with rfl | rfl
          · exact ⟨name, members, false, .inl rfl⟩
          · exact ⟨name, members, isList, .inr rfl⟩
      | _ =>
          obtain ⟨listed, rfl, -, rfl⟩ := step?_selector_inv rfl stepped between
          have below : .name key ∈ rest := by simpa using passes
          obtain ⟨name, members, isList, here | here⟩ := ih further below
          · cases here
          · cases here
            exact ⟨name, members, isList, .inl rfl⟩

end TypeCursor

/-- A path addresses a field that is declared inside a nested record, or an element of it: it
steps to the field through at least one name below the first. -/
def Schema.Nests (schema : Schema) (path : FieldPath) (inner : Field) : Prop :=
  ∃ first rest key last, path.segments = .name first :: rest ∧ .name key ∈ rest ∧
    (schema.cursor? first).bind (·.walk? rest) = some last ∧
    (last = .field inner ∨ last = .element inner)

namespace Schema.Nests

variable {schema : Schema} {path : FieldPath} {inner : Field} (nests : schema.Nests path inner)
include nests

/-- What has fields declared inside it is a nested record. -/
theorem root_nested :
    ∃ name members isList, schema.field? path.root = some (.nested name members isList) := by
  obtain ⟨first, rest, key, last, steps, passes, walked, ends⟩ := nests
  have root : path.root = first := by simp [FieldPath.root, steps, Segment.name?]
  have declared : last.isDeclared := by
    rcases ends with rfl | rfl
    · rfl
    · rfl
  obtain ⟨cursor, stands, further⟩ := Option.bind_eq_some_iff.mp walked
  obtain ⟨name, members, isList, here⟩ := TypeCursor.nested_of_walk? further declared passes
  rw [root]
  unfold cursor? at stands
  cases found : schema.field? first with
  | none =>
      rw [found] at stands
      obtain ⟨type, -, rfl⟩ := Option.map_eq_some_iff.mp stands
      rcases here with other | other
      · cases other
      · cases other
  | some field =>
      rw [found] at stands
      cases stands
      rcases here with same | other
      · cases same
        exact ⟨name, members, isList, rfl⟩
      · cases other

/-- A path to a nested field has a type. -/
theorem resolves : (schema.resolve? path).isSome := by
  obtain ⟨first, rest, key, last, steps, passes, walked, ends⟩ := nests
  simp only [resolve?, steps, walked, Option.map_some, Option.isSome_some]

/-- Nothing protects a nested record, for it has no exclusions of its own. -/
theorem unprotected (other : path.root ≠ idField) : Patch.isProtected schema path = false := by
  obtain ⟨name, members, isList, found⟩ := nests.root_nested
  refine not_isProtected_iff.mpr ⟨other, fun field same => ?_⟩
  rw [found] at same
  cases same
  exact ⟨rfl, rfl⟩

end Schema.Nests

namespace Patch

variable (schema : Schema) (mode : UpdateMode) (policy : UnknownFieldPolicy)

/-- A key of a nested field is carried out. -/
theorem applyPair_of_nests {path : FieldPath} {inner : Field} (nests : schema.Nests path inner)
    (other : path.root ≠ idField) (record : Object) {key : String}
    (read : schema.path key = .ok path) (operand : Json) :
    ∃ resolved, schema.resolve? path = some resolved ∧
      (applyPair schema mode policy record key operand).2 =
        (apply record path operand mode resolved).2 := by
  obtain ⟨resolved, resolves⟩ := Option.isSome_iff_exists.mp nests.resolves
  refine ⟨resolved, resolves, ?_⟩
  simp only [applyPair, read, nests.unprotected other, Bool.false_eq_true, if_false, resolves]
  rcases apply record path operand mode resolved with ⟨answer, after⟩
  cases answer <;> rfl

/-- Exclusions from updates guard the fields of a model, each with everything below it, and nothing
else.  In every mode and under every policy, whether the patch goes through or stops at an error,
what is read below a protected field stays, and a key that starts from one is reported as skipped.
But lifting the exclusions that are declared inside nested records makes no difference to any patch:
whether a nested field is excluded or not, the operand of a key that addresses it is carried out, and
the key is reported as applied. -/
theorem exclusion_guards_roots {record : Object} (distinct : record.keys.Nodup) (patch : Object) :
    applyAll schema.liftedWithin mode policy record patch =
        applyAll schema mode policy record patch ∧
      (∀ path, isProtected schema path = true →
        (applyAll schema mode policy record patch).2.lookup? path = record.lookup? path) ∧
      (∀ report, (applyAll schema mode policy record patch).1 = .ok report →
        ∀ key ∈ patch.keys, ∀ path, schema.path key = .ok path →
          (isProtected schema path = true → key ∈ report.skipped) ∧
            ∀ inner, schema.Nests path inner → path.root ≠ idField → key ∈ report.applied) ∧
      ∀ key operand path inner, schema.path key = .ok path → schema.Nests path inner →
        path.root ≠ idField →
          ∃ resolved, schema.resolve? path = some resolved ∧
            (applyPair schema mode policy record key operand).2 =
              (apply record path operand mode resolved).2 := by
  refine ⟨applyAll_liftedWithin schema mode policy record patch, ?kept, ?reported, ?carried⟩
  case kept =>
    intro path guarded
    apply lookup?_congr
    apply Classical.not_not.mp
    intro changed
    obtain ⟨⟨-, open_⟩, -⟩ :=
      (applyAll_frame schema mode policy distinct patch).2 path.root changed
    rw [Schema.not_isProtected_iff.mpr open_] at guarded
    cases guarded
  case reported =>
    intro report done key member path read
    obtain ⟨applied, skipped⟩ := applyAll_report schema mode policy (Prod.ext done rfl)
    rw [applied, skipped]
    constructor
    · intro guarded
      apply List.mem_filter.mpr
      simp [member, Schema.acceptsKey, read, guarded]
    · intro inner nests other
      apply List.mem_filter.mpr
      simp [member, Schema.acceptsKey, read, nests.unprotected other, nests.resolves]
  case carried =>
    intro key operand path inner read nests other
    exact applyPair_of_nests schema mode policy nests other record read operand

/-- Of two fields excluded from updates the one of the model keeps its value, and the one inside a
list of nested records loses it. -/
theorem exclusion_guards_roots_listed :
    let frozen : Field := .scalar .number { Traits.plain with excluded := [.update] }
    let schema : Schema := ⟨"user",
      [("balance", frozen), ("pets", .nested "user.pets" [("age", frozen)] true)], false, Hooks.none⟩
    let record : Object :=
      [("balance", .int 5), ("pets", .arr [.obj [("name", .str "x"), ("age", .int 1)]])]
    let patch : Object := [("balance", .int 9), ("pets[\x7bname:x\x7d].age", .int 2)]
    let path : FieldPath := ⟨"pets[\x7bname:x\x7d].age",
      [.name "pets", .element "name" "x", .name "age"], false⟩
    let report : PatchReport := ⟨["pets[\x7bname:x\x7d].age"], ["balance"]⟩
    let after : Object :=
      [("balance", .int 5), ("pets", .arr [.obj [("name", .str "x"), ("age", .int 2)]])]
    record.keys.Nodup ∧ schema.Nests path frozen ∧
      applyAll schema .cover .reject record patch = (.ok report, after) ∧
      "balance" ∈ report.skipped ∧ "pets[\x7bname:x\x7d].age" ∈ report.applied ∧
      applyAll schema.liftedWithin .cover .reject record patch = (.ok report, after) := by
  intro frozen schema record patch path report after
  have distinct : record.keys.Nodup := by decide
  have nests : schema.Nests path frozen :=
    ⟨"pets", [.element "name" "x", .name "age"], "age", .field frozen, rfl, by simp, rfl, .inl rfl⟩
  have done : applyAll schema .cover .reject record patch = (.ok report, after) := rfl
  obtain ⟨same, -, reports, -⟩ := exclusion_guards_roots schema .cover .reject distinct patch
  have balance := reports report (by rw [done]) "balance" (by decide) ⟨"balance", [.name "balance"],
    false⟩ rfl
  have age := reports report (by rw [done]) "pets[\x7bname:x\x7d].age" (by decide) path rfl
  exact ⟨distinct, nests, done, balance.1 rfl, age.2 frozen nests (by decide), by rw [same, done]⟩

/-- A declaration that excludes a nested field from updates is read as such, and a patch changes the
field all the same and reports its key as applied. -/
theorem nested_exclusion_passed_over :
    let level : Json := .obj [("type", .str "Number"), ("excludes", .str "update")]
    let declaration : Json := .obj [("profile", .obj [("nick", .str "String"), ("level", level)])]
    let path : FieldPath := ⟨"profile.level", [.name "profile", .name "level"], false⟩
    ∃ (fields : List (String × Field)) (inner : Field),
      Field.parseAll "user" declaration = .ok fields ∧ inner.excludedFrom .update = true ∧
        Schema.Nests ⟨"user", fields, false, Hooks.none⟩ path inner ∧
        Schema.path ⟨"user", fields, false, Hooks.none⟩ "profile.level" = .ok path ∧
        applyAll ⟨"user", fields, false, Hooks.none⟩ .cover .skip
            [("profile", .obj [("nick", .str "a"), ("level", .int 1)])]
            [("profile.level", .int 2)] =
          (.ok ⟨["profile.level"], []⟩,
            [("profile", .obj [("nick", .str "a"), ("level", .int 2)])]) := by
  intro level declaration path
  let inner : Field := .scalar .number { Traits.plain with excluded := [.update] }
  let fields : List (String × Field) :=
    [("profile", .nested "user.profile" [("nick", .scalar .string Traits.plain), ("level", inner)]
      false)]
  have nests : Schema.Nests ⟨"user", fields, false, Hooks.none⟩ path inner :=
    ⟨"profile", [.name "level"], "level", .field inner, rfl, by simp, rfl, .inl rfl⟩
  exact ⟨fields, inner, rfl, rfl, nests, rfl, rfl⟩

end Patch

end RecordStore
