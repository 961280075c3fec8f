/-
Module: RecordStore.Store.Relations
Purpose: Reading records, with relation fields replaced by the related records.  Related
  records are read without relations of their own.
Main exports: Backend.select, Backend.populate, Backend.resolve
-/
import RecordStore.Store.Basic

namespace RecordStore

/-- The condition that the key is one of several. -/
def Condition.idsIn (keys : List Json) : Condition :=
  [(idField, .arr [.str Operator.oneOf.text, .arr keys])]

/-- The keys an owning relation field holds. -/
def relatedKeys (stored : Option Json) : List Json :=
  match stored with
  | none => []
  | some .null => []
  | some (.arr keys) => keys
  | some key => [key]

/-- Whether a record has the key, in whatever kind it is written. -/
def Object.hasKey (record : Object) (key : Json) : Bool :=
  (record.get? idField).any fun id => id.looselyEqual key

/-- The records of keys, in the order of the keys. -/
def inKeyOrder (found : List Object) (keys : List Json) : List Object :=
  keys.filterMap fun key => found.find? fun record => record.hasKey key

/-- The value of a resolved relation field. -/
def relationValue (many : Bool) (related : List Object) : Json :=
  if many then .arr (related.map .obj)
  else
    match related with
    | [] => .null
    | first :: _ => .obj first

/-- Whether a patch key addresses a field, judged by its text: the name, or the name
followed by a dot or a bracket. -/
def touches (field key : String) : Bool :=
  key == field ||
    (field.toList.isPrefixOf key.toList &&
      match key.toList.drop field.length with
      | c :: _ => c == '.' || c == '['
      | [] => false)

namespace Backend

/-- The read plan of a condition on a model. -/
def plan (schema : Schema) (condition : Option Condition) (options : SelectOptions) :
    Action δ Plan := do
  let plan ← Action.lift .plan (Plan.ofCondition condition options)
  Action.lift (.invalidQuery schema.name) (plan.checkScope schema)
  return plan

/-- The records a condition finds, cut to the model's own columns. -/
def related (backend : Backend δ) (target : String) (condition : Condition) :
    Action δ (List Object) := do
  let schema ← Action.schema target
  let plan ← plan schema (some condition) SelectOptions.plain
  let found ← backend.find schema plan
  let projected := found.map (·.project (schema.selectColumns plan))
  return if plan.index.isSome then projected.getLast?.toList else projected

/-- The related records of one record. -/
def resolve (backend : Backend δ) (relation : Relation) (record : Object) : Action δ Json := do
  let found ← match relation.side with
    | .owning =>
      let keys := relatedKeys (record.get? relation.field)
      if keys.isEmpty then pure []
      else do
        let found ← backend.related relation.target (Condition.idsIn keys)
        pure (inKeyOrder found keys)
    | .referenced back =>
      match record.get? idField with
      | none => pure []
      | some .null => pure []
      | some key => backend.related relation.target [(back, key)]
  return relationValue relation.many found

/-- One relation field of every record resolved. -/
def populateField (backend : Backend δ) (records : List Object) (relation : Relation) :
    Action δ (List Object) :=
  records.mapM fun record => do
    let value ← backend.resolve relation record
    return record.insert relation.field value

/-- The relation fields of a choice resolved in every record, field by field. -/
def populate (backend : Backend δ) (schema : String) (extend : Extend) (records : List Object) :
    Action δ (List Object) := do
  let relations := ((← read).registry.relationsOf schema).filter fun relation =>
    extend.includes relation.field
  relations.foldlM backend.populateField records

/-- The relation fields a patch addresses resolved again. -/
def populatePatched (backend : Backend δ) (schema : String) (patch record : Object) :
    Action δ Object := do
  let relations := (← read).registry.relationsOf schema
  let touched := (relations.filter fun relation =>
    patch.keys.any (touches relation.field)).map Relation.field
  let populated ← backend.populate schema (.fields touched) [record]
  return populated.head?.getD record

/-- The records a condition finds, with relations resolved and cut to the columns asked
for. -/
def select (backend : Backend δ) (schema : String) (condition : Option Condition)
    (options : SelectOptions) : Action δ Selection := do
  let model ← Action.schema schema
  let plan ← plan model condition options
  let found ← backend.find model plan
  let populated ← backend.populate schema plan.extend found
  let projected := populated.map (·.project (model.selectColumns plan))
  return if plan.index.isSome then .one projected.getLast? else .many projected

end Backend

end RecordStore
