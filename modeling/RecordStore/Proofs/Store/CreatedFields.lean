/-
Module: RecordStore.Proofs.Store.CreatedFields
Purpose: What a create makes of the values it is given.  The record has the key, the stored
  fields and the times in this order, each with a value that is read off the same name of the
  values or off the declaration.  So nothing else that is given has a part in the record, and a
  record that was made by a create is made of itself again.
Main exports: Field.isFilled, Schema.PlainCreates, Schema.TakenAlike, Schema.prepareCreate_eq,
  created_by_taken_values
-/
import Mathlib.Data.List.Nodup
import RecordStore.Proofs.Json.Members
import RecordStore.Proofs.Schema.Names
import RecordStore.Store.Shaping

namespace RecordStore

namespace Field

/-- Whether a create writes a field: it is given and creates do not leave it alone, or there is
a value for a field that is given none, be it declared or that of every list and every date. -/
def isFilled (field : Field) (given : Bool) : Bool :=
  given && !field.excludedFrom .create || field.traits.initial.isSome || field.isList ||
    field.type == .dateTime

theorem isSome_defaultValue? (field : Field) :
    field.defaultValue?.isSome =
      (field.traits.initial.isSome || field.isList || field.type == .dateTime) := by
  unfold defaultValue?
  cases field.traits.initial with
  | some value => rfl
  | none =>
      cases field.isList with
      | true => rfl
      | false => cases field.type == .dateTime <;> rfl

/-- The fields that are filled are those that a create has a value for. -/
theorem isSome_createdValue? (field : Field) (given : Option Json) :
    (field.createdValue? given).isSome = field.isFilled given.isSome := by
  unfold createdValue? isFilled
  cases field.excludedFrom .create with
  | true => simp [isSome_defaultValue?]
  | false => cases given <;> simp [isSome_defaultValue?]

/-- A field is created again with the value it was created with. -/
theorem createdValue?_again (field : Field) (given : Option Json) :
    field.createdValue? (field.createdValue? given) = field.createdValue? given := by
  unfold createdValue?
  cases field.excludedFrom .create with
  | true => rfl
  | false =>
      cases given with
      | some value => rfl
      | none => cases field.defaultValue? <;> rfl

/-- What is given for a field that creates leave alone has no part in its value. -/
theorem createdValue?_congr {field : Field} {given other : Option Json}
    (same : field.excludedFrom .create = false → given = other) :
    field.createdValue? given = field.createdValue? other := by
  unfold createdValue?
  cases excluded : field.excludedFrom .create with
  | true => rfl
  | false => rw [same excluded]

end Field

namespace Schema

/-- A model whose creates follow its declaration alone: the fields have names of their own, as in
every model that is defined, no hook changes what is created, and on a model with times no field
is called like one of them. -/
structure PlainCreates (schema : Schema) : Prop where
  named : schema.Named
  unhooked : ∀ hook ∈ schema.hooks.before, hook.1.covers .create = false
  untimed : schema.timestamps = true → createdAtField ∉ schema.fields.map Prod.fst ∧
    updatedAtField ∉ schema.fields.map Prod.fst

/-- Values agree in all that a create takes of them: a key other than `null`, the stored fields
that creates do not leave alone, and on a model with times the texts that are given for them. -/
structure TakenAlike (schema : Schema) (values others : Object) : Prop where
  key : (values.get? idField).filter (!·.isNull) = (others.get? idField).filter (!·.isNull)
  fields : ∀ entry ∈ schema.storedFields, entry.2.excludedFrom .create = false →
    values.get? entry.1 = others.get? entry.1
  times : schema.timestamps = true → ∀ name ∈ [createdAtField, updatedAtField],
    (values.get? name).bind Json.str? = (others.get? name).bind Json.str?

/-! ### The parts of a created record -/

/-- The members of fields that a create has values for. -/
def filledFields (values : Object) (fields : List (String × Field)) : Object :=
  fields.filterMap fun entry =>
    (entry.2.createdValue? (values.get? entry.1)).map fun value => (entry.1, value)

/-- The time that is given as a text, or else now. -/
def givenStamp (values : Object) (now name : String) : Json :=
  .str (((values.get? name).bind Json.str?).getD now)

/-- The times of a created record. -/
def stamps (schema : Schema) (values : Object) (now : String) : Object :=
  if schema.timestamps then
    [(createdAtField, givenStamp values now createdAtField),
      (updatedAtField, givenStamp values now updatedAtField)]
  else []

/-- Only a key other than `null` is taken. -/
theorem givenKey_eq (values : Object) :
    givenKey values =
      (((values.get? idField).filter (!·.isNull)).map fun key => (idField, key)).toList := by
  unfold givenKey
  cases values.get? idField with
  | none => rfl
  | some key => cases key <;> rfl

theorem keys_givenKey (values : Object) :
    (givenKey values).keys =
      if (values.get? idField).any (!·.isNull) then [idField] else [] := by
  rw [givenKey_eq]
  cases values.get? idField with
  | none => rfl
  | some key => cases key <;> rfl

theorem eq_idField_of_givenKey {values : Object} {name : String}
    (listed : name ∈ (givenKey values).keys) : name = idField := by
  rw [keys_givenKey] at listed
  split at listed
  · exact List.mem_singleton.mp listed
  · cases listed

theorem keys_filledFields (values : Object) (fields : List (String × Field)) :
    Object.keys (filledFields values fields) =
      (fields.filter fun entry => entry.2.isFilled (values.contains entry.1)).map Prod.fst := by
  induction fields with
  | nil => rfl
  | cons entry rest ih =>
      have filled := entry.2.isSome_createdValue? (values.get? entry.1)
      rw [filledFields, List.filterMap_cons]
      cases created : entry.2.createdValue? (values.get? entry.1) with
      | none =>
          rw [created] at filled
          rw [List.filter_cons_of_neg (by simp [Object.contains, ← filled])]
          exact ih
      | some value =>
          rw [created] at filled
          rw [List.filter_cons_of_pos (by simp [Object.contains, ← filled])]
          exact congrArg (entry.1 :: ·) ih

/-- Under the name of a field stands the value that a create has for it. -/
theorem get?_filledFields (values : Object) {fields : List (String × Field)}
    (distinct : (fields.map Prod.fst).Nodup) {entry : String × Field} (member : entry ∈ fields) :
    (filledFields values fields).get? entry.1 =
      entry.2.createdValue? (values.get? entry.1) := by
  induction fields with
  | nil => cases member
  | cons first rest ih =>
      rw [List.map_cons, List.nodup_cons] at distinct
      have absent : (filledFields values rest).get? first.1 = none := by
        rw [Object.get?_eq_none_iff, keys_filledFields]
        exact fun inside => distinct.1 ((List.filter_sublist.map Prod.fst).subset inside)
      rw [filledFields, List.filterMap_cons]
      rcases List.mem_cons.mp member with rfl | later
      · cases created : entry.2.createdValue? (values.get? entry.1) with
        | none => exact absent
        | some value => exact Object.get?_cons_self _ _ _
      · have other : first.1 ≠ entry.1 := fun same =>
          distinct.1 (same ▸ List.mem_map_of_mem later)
        cases first.2.createdValue? (values.get? first.1) with
        | none => exact ih distinct.2 later
        | some value => exact (Object.get?_cons_of_ne other _).trans (ih distinct.2 later)

/-- Fields that a record does not have are filled in behind its members. -/
theorem foldl_fillField (values : Object) {fields : List (String × Field)} {record : Object}
    (distinct : (fields.map Prod.fst).Nodup)
    (fresh : ∀ name ∈ fields.map Prod.fst, name ∉ record.keys) :
    fields.foldl (fillField values) record = record ++ filledFields values fields := by
  induction fields generalizing record with
  | nil => exact (List.append_nil record).symm
  | cons entry rest ih =>
      rw [List.map_cons, List.nodup_cons] at distinct
      rw [List.map_cons, List.forall_mem_cons] at fresh
      rw [List.foldl_cons, fillField, filledFields, List.filterMap_cons]
      cases entry.2.createdValue? (values.get? entry.1) with
      | none => exact ih distinct.2 fresh.2
      | some value =>
          have behind : record.insert entry.1 value = record ++ [(entry.1, value)] :=
            Object.insert_of_not_mem fresh.1 value
          simp only [Option.map_some, behind]
          rw [ih distinct.2, List.append_assoc]
          · rfl
          · intro name listed inside
            simp only [Object.keys, List.map_append, List.mem_append, List.map_cons, List.map_nil,
              List.mem_singleton] at inside
            rcases inside with old | rfl
            · exact fresh.2 name listed old
            · exact distinct.1 listed

section Plain

variable {schema : Schema}

theorem sublist_storedFields (schema : Schema) :
    (schema.storedFields.map Prod.fst).Sublist (schema.fields.map Prod.fst) :=
  List.filter_sublist.map Prod.fst

theorem stampOf_eq {key : String} (untaken : key ∉ schema.fields.map Prod.fst) (values : Object)
    (now : String) : schema.stampOf values now key = givenStamp values now key := by
  have unstored : Field.find? schema.storedFields key = none :=
    Field.find?_eq_none fun listed => untaken ((sublist_storedFields schema).subset listed)
  unfold stampOf givenStamp
  rw [unstored, Option.isSome_none, if_neg Bool.false_ne_true]
  cases values.get? key with
  | none => rfl
  | some value => cases value <;> rfl

/-- Hooks for other events leave a record as it is. -/
theorem runBefore_of_unhooked {hooks : Hooks} {event : HookEvent}
    (unhooked : ∀ hook ∈ hooks.before, hook.1.covers event = false) (record : Object) :
    hooks.runBefore event record = record := by
  unfold Hooks.runBefore
  revert unhooked
  induction hooks.before with
  | nil => exact fun _ => rfl
  | cons hook rest ih =>
      intro unhooked
      rw [List.foldl_cons, unhooked hook List.mem_cons_self, if_neg Bool.false_ne_true]
      exact ih fun other member => unhooked other (List.mem_cons_of_mem _ member)

/-- What stands in front of the times has the name of the key or of a field. -/
theorem mem_keys_filled {values : Object} {name : String}
    (listed : name ∈ Object.keys (givenKey values ++ filledFields values schema.storedFields)) :
    name = idField ∨ name ∈ schema.fields.map Prod.fst := by
  rw [Object.keys_append, List.mem_append, keys_filledFields] at listed
  rcases listed with key | filled
  · exact .inl (eq_idField_of_givenKey key)
  · exact .inr ((sublist_storedFields schema).subset
      ((List.filter_sublist.map Prod.fst).subset filled))

variable (plain : schema.PlainCreates)
include plain

/-- A create writes the key, the fields it has values for in declared order, and the times. -/
theorem prepareCreate_eq (values : Object) (now : String) :
    schema.prepareCreate values now =
      givenKey values ++ filledFields values schema.storedFields ++ schema.stamps values now := by
  have distinct : (schema.storedFields.map Prod.fst).Nodup :=
    plain.named.distinct.sublist (sublist_storedFields schema)
  have fresh : ∀ name ∈ schema.storedFields.map Prod.fst, name ∉ (givenKey values).keys := by
    intro name listed inside
    obtain rfl := eq_idField_of_givenKey inside
    exact plain.named.keyless ((sublist_storedFields schema).subset listed)
  rw [prepareCreate, foldl_fillField values distinct fresh, runBefore_of_unhooked plain.unhooked,
    stampCreated, stamps]
  cases timed : schema.timestamps with
  | false => exact (List.append_nil _).symm
  | true =>
      obtain ⟨created, updated⟩ := plain.untimed timed
      have first : createdAtField ∉
          Object.keys (givenKey values ++ filledFields values schema.storedFields) := by
        intro listed
        exact (mem_keys_filled listed).elim (by decide) created
      have second : updatedAtField ∉
          Object.keys (givenKey values ++ filledFields values schema.storedFields) := by
        intro listed
        exact (mem_keys_filled listed).elim (by decide) updated
      have apart : updatedAtField ∉ Object.keys (givenKey values ++
          filledFields values schema.storedFields ++ [(createdAtField,
            givenStamp values now createdAtField)]) := by
        rw [Object.keys_append, List.mem_append, not_or]
        exact ⟨second, by simp [Object.keys, createdAtField, updatedAtField]⟩
      rw [if_pos rfl, if_pos rfl, stampOf_eq created, stampOf_eq updated,
        Object.insert_of_not_mem first, Object.insert_of_not_mem apart, List.append_assoc]
      rfl

end Plain

/-! ### What a create takes -/

section Taken

variable {schema : Schema} {values others : Object}

theorem givenKey_congr
    (same : (values.get? idField).filter (!·.isNull) = (others.get? idField).filter (!·.isNull)) :
    givenKey values = givenKey others := by
  rw [givenKey_eq, givenKey_eq, same]

/-- Fields are filled alike if creates have the same values for them. -/
theorem filledFields_congr {fields : List (String × Field)}
    (same : ∀ entry ∈ fields, entry.2.createdValue? (values.get? entry.1) =
      entry.2.createdValue? (others.get? entry.1)) :
    filledFields values fields = filledFields others fields := by
  apply List.filterMap_congr
  intro entry member
  rw [same entry member]

theorem stamps_congr {now later : String}
    (same : schema.timestamps = true → ∀ name ∈ [createdAtField, updatedAtField],
      givenStamp values now name = givenStamp others later name) :
    schema.stamps values now = schema.stamps others later := by
  unfold stamps
  cases timed : schema.timestamps with
  | false => rfl
  | true =>
      have each := same timed
      rw [each createdAtField (by simp), each updatedAtField (by simp)]

end Taken

section Again

variable {schema : Schema}

theorem get?_givenKey (values : Object) :
    (givenKey values).get? idField = (values.get? idField).filter (!·.isNull) := by
  rw [givenKey_eq]
  cases (values.get? idField).filter (!·.isNull) with
  | none => rfl
  | some key => rfl

theorem get?_givenKey_of_ne (values : Object) {name : String} (other : name ≠ idField) :
    (givenKey values).get? name = none :=
  Object.get?_eq_none_iff.mpr fun listed => other (eq_idField_of_givenKey listed)

theorem get?_filledFields_of_not_mem (values : Object) {fields : List (String × Field)}
    {name : String} (absent : name ∉ fields.map Prod.fst) :
    (filledFields values fields).get? name = none := by
  rw [Object.get?_eq_none_iff, keys_filledFields]
  exact fun listed => absent ((List.filter_sublist.map Prod.fst).subset listed)

theorem get?_stamps (values : Object) (now : String) (timed : schema.timestamps = true)
    {name : String} (listed : name ∈ [createdAtField, updatedAtField]) :
    (schema.stamps values now).get? name = some (givenStamp values now name) := by
  rw [stamps, if_pos timed]
  simp only [List.mem_cons, List.not_mem_nil, or_false] at listed
  rcases listed with rfl | rfl
  · exact Object.get?_cons_self _ _ _
  · have apart : createdAtField ≠ updatedAtField := by decide
    exact (Object.get?_cons_of_ne apart _).trans (Object.get?_cons_self _ _ _)

theorem get?_stamps_of_not_mem (values : Object) (now : String) {name : String}
    (absent : schema.timestamps = true → name ∉ [createdAtField, updatedAtField]) :
    (schema.stamps values now).get? name = none := by
  rw [Object.get?_eq_none_iff, stamps]
  cases timed : schema.timestamps with
  | false => exact List.not_mem_nil
  | true => exact absent timed

variable (plain : schema.PlainCreates) (values : Object) (now : String)
include plain

/-- A created record has the key that was given. -/
theorem get?_id_prepareCreate :
    (schema.prepareCreate values now).get? idField =
      (values.get? idField).filter (!·.isNull) := by
  have keyless : idField ∉ schema.storedFields.map Prod.fst := fun listed =>
    plain.named.keyless ((sublist_storedFields schema).subset listed)
  rw [prepareCreate_eq plain, Object.get?_append, Object.get?_append, get?_givenKey,
    get?_filledFields_of_not_mem values keyless,
    get?_stamps_of_not_mem values now (fun _ => by decide), Option.or_none, Option.or_none]

/-- A created record has in each stored field what a create has for it. -/
theorem get?_field_prepareCreate {entry : String × Field} (member : entry ∈ schema.storedFields) :
    (schema.prepareCreate values now).get? entry.1 =
      entry.2.createdValue? (values.get? entry.1) := by
  have declared : entry.1 ∈ schema.fields.map Prod.fst :=
    (sublist_storedFields schema).subset (List.mem_map_of_mem member)
  have other : entry.1 ≠ idField := fun same => plain.named.keyless (same ▸ declared)
  have untimed : schema.timestamps = true → entry.1 ∉ [createdAtField, updatedAtField] := by
    intro timed listed
    obtain ⟨created, updated⟩ := plain.untimed timed
    simp only [List.mem_cons, List.not_mem_nil, or_false] at listed
    rcases listed with same | same
    · exact created (same ▸ declared)
    · exact updated (same ▸ declared)
  have distinct : (schema.storedFields.map Prod.fst).Nodup :=
    plain.named.distinct.sublist (sublist_storedFields schema)
  rw [prepareCreate_eq plain, Object.get?_append, Object.get?_append,
    get?_givenKey_of_ne values other, get?_filledFields values distinct member,
    get?_stamps_of_not_mem values now untimed, Option.none_or, Option.or_none]

/-- A created record has the times of its creation, as texts. -/
theorem get?_stamp_prepareCreate (timed : schema.timestamps = true) {name : String}
    (listed : name ∈ [createdAtField, updatedAtField]) :
    (schema.prepareCreate values now).get? name = some (givenStamp values now name) := by
  obtain ⟨created, updated⟩ := plain.untimed timed
  have undeclared : name ∉ schema.fields.map Prod.fst ∧ name ≠ idField := by
    simp only [List.mem_cons, List.not_mem_nil, or_false] at listed
    rcases listed with rfl | rfl
    · exact ⟨created, by decide⟩
    · exact ⟨updated, by decide⟩
  have unstored : name ∉ schema.storedFields.map Prod.fst := fun inside =>
    undeclared.1 ((sublist_storedFields schema).subset inside)
  rw [prepareCreate_eq plain, Object.get?_append, Object.get?_append,
    get?_givenKey_of_ne values undeclared.2, get?_filledFields_of_not_mem values unstored,
    get?_stamps values now timed listed]
  rfl

end Again

end Schema

open Schema

/-- The record of a create follows from what a create takes of the values.  Its keys are, in this
order, that of the key if one is given that is not `null`, those of the stored fields in declared
order that are given and not left alone by creates or else have a default, and on a model with
times those of the two times.  Values that agree in what is taken of them make the same record,
whatever else they hold and in whatever order.  And a record that a create has made makes itself,
at whatever time. -/
theorem created_by_taken_values {schema : Schema} (plain : schema.PlainCreates) (values : Object)
    (now : String) :
    (schema.prepareCreate values now).keys =
        (if (values.get? idField).any (!·.isNull) then [idField] else []) ++
          (schema.storedFields.filter fun entry =>
            entry.2.isFilled (values.contains entry.1)).map Prod.fst ++
          (if schema.timestamps then [createdAtField, updatedAtField] else []) ∧
      (∀ others, schema.TakenAlike values others →
        schema.prepareCreate values now = schema.prepareCreate others now) ∧
      ∀ later, schema.prepareCreate (schema.prepareCreate values now) later =
        schema.prepareCreate values now := by
  refine ⟨?keys, fun others alike => ?alike, fun later => ?again⟩
  case keys =>
    rw [prepareCreate_eq plain, Object.keys_append, Object.keys_append, keys_givenKey,
      keys_filledFields, stamps]
    cases schema.timestamps <;> rfl
  case alike =>
    have filled : filledFields values schema.storedFields =
        filledFields others schema.storedFields := by
      apply filledFields_congr
      intro entry member
      exact Field.createdValue?_congr (alike.fields entry member)
    have stamped : schema.stamps values now = schema.stamps others now := by
      apply stamps_congr
      intro timed name listed
      rw [givenStamp, givenStamp, alike.times timed name listed]
    rw [prepareCreate_eq plain values, prepareCreate_eq plain others, givenKey_congr alike.key,
      filled, stamped]
  case again =>
    have key : givenKey (schema.prepareCreate values now) = givenKey values := by
      apply givenKey_congr
      rw [get?_id_prepareCreate plain, Option.filter_filter]
      simp
    have filled : filledFields (schema.prepareCreate values now) schema.storedFields =
        filledFields values schema.storedFields := by
      apply filledFields_congr
      intro entry member
      rw [get?_field_prepareCreate plain values now member, Field.createdValue?_again]
    have stamped : schema.stamps (schema.prepareCreate values now) later =
        schema.stamps values now := by
      apply stamps_congr
      intro timed name listed
      rw [givenStamp, get?_stamp_prepareCreate plain values now timed listed]
      rfl
    rw [prepareCreate_eq plain (schema.prepareCreate values now), key, filled, stamped,
      ← prepareCreate_eq plain]

/-- A user is created with a `null` for a key and for a date, a time that is a number, a field
that creates leave alone, one that is never stored and one that is not declared. -/
theorem created_by_taken_values_user :
    let user : Schema := ⟨"user", [("name", .scalar .string Traits.plain),
      ("role", .scalar .string { Traits.plain with
        excluded := [.create], initial := some (.str "guest") }),
      ("token", .scalar .string { Traits.plain with excluded := [.create] }),
      ("tags", .scalar .string { Traits.plain with isList := true }),
      ("posts", .scalar .id { Traits.plain with
        target := some "post", isList := true, belongs := some false }),
      ("born", .scalar .dateTime Traits.plain)], true,
      ⟨[(.update, fun record => record.erase "name")], []⟩⟩
    let values : Object := [("extra", .bool true), ("born", .null), ("posts", .arr []),
      ("role", .str "admin"), ("id", .null), ("createdAt", .int 5), ("updatedAt", .str "then")]
    let others : Object := [("updatedAt", .str "then"), ("token", .str "x"), ("born", .null)]
    user.PlainCreates ∧ user.TakenAlike values others ∧
      (user.prepareCreate values "now").keys =
        ["role", "tags", "born", "createdAt", "updatedAt"] ∧
      user.prepareCreate values "now" = user.prepareCreate others "now" ∧
      user.prepareCreate (user.prepareCreate values "now") "later" =
        user.prepareCreate values "now" := by
  intro user values others
  have plain : user.PlainCreates := by
    refine ⟨⟨by decide, by decide⟩, ?_, fun _ => by decide⟩
    intro hook listed
    obtain rfl := List.mem_singleton.mp listed
    rfl
  have alike : user.TakenAlike values others := by
    refine ⟨rfl, ?_, fun _ => ?_⟩
    · refine List.forall_mem_filter.mpr ?_
      simp only [user, List.forall_mem_cons]
      exact ⟨fun _ _ => rfl, nofun, nofun, fun _ _ => rfl, nofun, fun _ _ => rfl, nofun⟩
    · simp only [List.forall_mem_cons]
      exact ⟨rfl, rfl, nofun⟩
  obtain ⟨keys, same, again⟩ := created_by_taken_values plain values "now"
  exact ⟨plain, alike, keys, same others alike, again "later"⟩

end RecordStore
