/-
Module: RecordStore.Store.Shaping
Purpose: The shape of records: what a create writes, what an update leaves beside its
  patch, and the columns a read returns.
Main exports: Schema.prepareCreate, Schema.applyUpdate, Schema.selectColumns, Object.project
-/
import RecordStore.Patch.Update
import RecordStore.Query.Fault

namespace RecordStore

/-- The date of a date field that is given none. -/
def epochText : String := "1970-01-01T00:00:00Z"

namespace Field

/-- The value of a field that is given none: the declared one, otherwise an empty list or
the epoch. -/
def defaultValue? (field : Field) : Option Json :=
  match field.traits.initial with
  | some value => some value
  | none =>
    if field.isList then some (.arr [])
    else if field.type == .dateTime then some (.str epochText)
    else none

/-- The value a create stores in a field. -/
def createdValue? (field : Field) (given : Option Json) : Option Json :=
  if field.excludedFrom .create then field.defaultValue?
  else
    match given with
    | some value => some value
    | none => field.defaultValue?

end Field

namespace Schema

/-- A key that is given and is not `null`. -/
def givenKey (values : Object) : Object :=
  match values.get? idField with
  | none => []
  | some .null => []
  | some key => [(idField, key)]

/-- A record with the created value of a stored field. -/
def fillField (values record : Object) (entry : String × Field) : Object :=
  match entry.2.createdValue? (values.get? entry.1) with
  | some value => record.insert entry.1 value
  | none => record

/-- A time of creation: the given text, unless a declared field took it, otherwise now. -/
def stampOf (schema : Schema) (values : Object) (now : String) (key : String) : Json :=
  if (Field.find? schema.storedFields key).isSome then .str now
  else
    match values.get? key with
    | some (.str given) => .str given
    | _ => .str now

/-- A record with its times of creation. -/
def stampCreated (schema : Schema) (values : Object) (now : String) (record : Object) : Object :=
  if schema.timestamps then
    (record.insert createdAtField (schema.stampOf values now createdAtField)).insert updatedAtField
      (schema.stampOf values now updatedAtField)
  else record

/-- The record a create writes: the key, the stored fields with defaults filled in, the
times; whatever else is given is dropped.  The hooks run last. -/
def prepareCreate (schema : Schema) (values : Object) (now : String) : Object :=
  let filled := schema.storedFields.foldl (fillField values) (givenKey values)
  schema.hooks.runBefore .create (schema.stampCreated values now filled)

/-- Applies a patch, then touches the time of update and runs the hooks; a patch that
fails leaves the record at the failing pair. -/
def applyUpdate (schema : Schema) (record patch : Object) (mode : UpdateMode)
    (policy : UnknownFieldPolicy) (now : String) : Patch.Change PatchReport :=
  match Patch.applyAll schema mode policy record patch with
  | (.error error, after) => (.error error, after)
  | (.ok report, after) =>
    let touched := if schema.timestamps then after.insert updatedAtField (.str now) else after
    (.ok report, schema.hooks.runBefore .update touched)

/-- The columns a read returns: those asked for, or the model's own. -/
def selectColumns (schema : Schema) (plan : Plan) : List String :=
  plan.columns.getD (schema.columnsFor .select)

end Schema

/-- The values of the columns a record has, in the order of the columns. -/
def Object.project (record : Object) (columns : List String) : Object :=
  columns.foldl (fun projected column =>
    match record.get? column with
    | some value => projected.insert column value
    | none => projected) []

end RecordStore
