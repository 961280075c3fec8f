/-
Module: RecordStore.Store.Engine
Purpose: The operations of a store, the same for every backend: creating, saving, removing,
  counting, taking the maximum, and importing fixtures.
Main exports: Backend.create, Backend.saveOne, Backend.save, Backend.remove, Backend.tally,
  Backend.maximum, Backend.sync, Backend.dump
-/
import RecordStore.Store.Relations
import RecordStore.Store.Fixture
import RecordStore.Json.Loose

namespace RecordStore.Backend

/-- Inserts one record built from values and answers it as stored. -/
def create (backend : Backend δ) (schema : String) (values : Object) : Action δ Object := do
  let model ← Action.schema schema
  let now ← Action.now
  let stored ← backend.insert model (model.prepareCreate values now.text)
  Action.notify model .create stored
  return stored

/-- Changes the record of a key by a patch and answers it as stored, with the relation
fields of the patch resolved. -/
def saveOne (backend : Backend δ) (schema : String) (id : Json) (patch : Object)
    (options : SaveOptions) : Action δ Object := do
  let model ← Action.schema schema
  match ← backend.fetch model id with
  | none => throw (.recordNotFound schema id.looseText)
  | some record =>
    let now ← Action.now
    match model.applyUpdate record patch options.mode options.policy now.text with
    | (.error error, _) => throw (.patch error)
    | (.ok _, changed) =>
      let stored ← backend.replace model id changed
      Action.notify model .update stored
      backend.populatePatched schema patch stored

/-- The outcome of an operation, which fails in the answer rather than in the session. -/
def attempt (action : Action δ α) : Action δ (Except StoreError α) :=
  tryCatch (do return .ok (← action)) fun error => return .error error

/-- Saves each of several keys; one that fails prevents no other. -/
def saveEach (backend : Backend δ) (schema : String) (patch : Object) (options : SaveOptions) :
    List Json → Action δ (List Object × List (Json × StoreError))
  | [] => return ([], [])
  | id :: rest => do
    let outcome ← attempt (backend.saveOne schema id patch options)
    let (updated, failed) ← saveEach backend schema patch options rest
    return match outcome with
      | .ok record => (record :: updated, failed)
      | .error error => (updated, (id, error) :: failed)

/-- The columns of a read of keys. -/
def keyOnly : SelectOptions := ⟨some [idField], .none⟩

/-- Creates a record without a condition, changes the record of a key, and otherwise
changes every record the condition finds. -/
def save (backend : Backend δ) (schema : String) (values : Object) (condition : Option Condition)
    (options : SaveOptions) : Action δ SaveOutcome :=
  match condition with
  | none => do return .created (← backend.create schema values)
  | some condition =>
    match Plan.indexOf? condition with
    | some id => do return .updated (← backend.saveOne schema id values options)
    | none => do
      let found ← backend.select schema (some condition) keyOnly
      let ids := found.records.filterMap (·.get? idField)
      let (updated, failed) ← backend.saveEach schema values options ids
      return .batch updated failed

/-- The model and the read plan of a bulk operation. -/
def target (backend : Backend δ) (schema : String) (condition : Option Condition) :
    Action δ (Schema × Plan) := do
  if backend.conditionFirst then
    let plan ← Action.lift .plan (Plan.ofCondition condition SelectOptions.plain)
    let model ← Action.schema schema
    Action.lift (.invalidQuery model.name) (plan.checkScope model)
    return (model, plan)
  else
    let model ← Action.schema schema
    let plan ← plan model condition SelectOptions.plain
    return (model, plan)

/-- Deletes the records a condition finds, all of them without one. -/
def remove (backend : Backend δ) (schema : String) (condition : Option Condition) :
    Action δ Nat := do
  let (model, plan) ← backend.target schema condition
  backend.delete model plan

/-- The number of records a condition finds. -/
def tally (backend : Backend δ) (schema : String) (condition : Option Condition) :
    Action δ Nat := do
  let (model, plan) ← backend.target schema condition
  backend.count model plan

/-- The greatest value of a field among the records a condition finds, zero if there is
none. -/
def maximum (backend : Backend δ) (schema field : String) (condition : Option Condition) :
    Action δ Json := do
  let model ← Action.schema schema
  let path ← Action.lift .path (model.path field)
  let plan ← plan model condition SelectOptions.plain
  let best ← backend.greatest model path plan
  return match best with
    | none => .int 0
    | some .null => .int 0
    | some value => value

/-- Drops the records of a model. -/
def sync (backend : Backend δ) (schema : String) : Action δ Unit := do
  backend.reset (← Action.schema schema)

/-- The records of a fixture file. -/
def readFixture (path : String) : Action δ (List Object) := do
  match (← read).files path with
  | none => throw (.missingFile path)
  | some text => Action.lift (.fixture path) (Fixture.parse text)

/-- Creates each of several records, up to the first that fails, and answers how many. -/
def createEach (backend : Backend δ) (schema : String) : List Object → Action δ Nat
  | [] => return 0
  | values :: rest => do
    let _ ← backend.create schema values
    let more ← createEach backend schema rest
    return more + 1

/-- Inserts every record of a fixture file. -/
def dump (backend : Backend δ) (schema path : String) : Action δ Nat := do
  backend.createEach schema (← readFixture path)

end RecordStore.Backend
