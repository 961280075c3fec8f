/-
Module: RecordStore.Relational.Store
Purpose: The relational backend.  Each model has a table; the tables are made when the
  store is first used.  Plans become statements, which run only if there are as many
  values as holes.
Main exports: Relational.Connection, Relational.backend
-/
import RecordStore.Relational.Database
import RecordStore.Store.Engine

namespace RecordStore.Relational

/-- A database and whether its tables have been made since it was opened. -/
structure Connection where
  database : Database
  opened : Bool
  /-- The database is on file, where steps that came before a failure stay done. -/
  kept : Bool
deriving DecidableEq, Repr, Inhabited

/-- A connection to an empty database. -/
def Connection.start (kept : Bool) : Connection := ⟨Database.empty, false, kept⟩

/-- The database of a store that is opened anew. -/
def Connection.reopen (connection : Connection) : Connection :=
  if connection.kept then { connection with opened := false } else Connection.start false

/-- A failure of the database. -/
def failed (step : DatabaseStep) : Action Connection α := throw (.database step)

/-- The database, with its tables made if this is its first use. -/
def connect : Action Connection Database := do
  let connection ← Action.data
  if connection.opened then return connection.database
  else
    let registry := (← read).registry
    match connection.database.openAll registry.schemas with
    | (true, database) =>
      Action.store { connection with database := database, opened := true }
      return database
    | (false, database) =>
      if connection.kept then Action.store { connection with database := database }
      failed .createTable

/-- Replaces a table. -/
def putTable (table : Table) : Action Connection Unit := do
  let connection ← Action.data
  Action.store { connection with database := connection.database.put table }

/-- The table of a model; a model without one has an empty table. -/
def tableOf (model : Schema) : Action Connection Table := do
  return ((← connect).table? model.name).getD (Table.empty model)

/-- The cells of a record that has them, as parameters. -/
def encodeRow (columns : List Column) (record : Object) : Row :=
  columns.filterMap fun column =>
    (record.get? column.name).map fun value => (column.name, column.encode value)

/-- Every cell but the key's, `null` where the record has no value. -/
def encodeAssignments (columns : List Column) (record : Object) : Row :=
  (columns.filter fun column => column.kind != .key).map fun column =>
    (column.name, column.encode ((record.get? column.name).getD .null))

/-- The value of a stored cell. -/
def decodeCell (row : Row) (column : Column) : Except StoreError (String × Json) :=
  match column.decode (.value (row.get column.name)) with
  | some value => .ok (column.name, value)
  | none => .error (.serialization .notText)

/-- The record of a row. -/
def decodeRow (columns : List Column) (row : Row) : Except StoreError Object :=
  columns.mapM (decodeCell row)

/-- A plan as a query of rows. -/
def compile (model : Schema) (plan : Plan) : Action Connection RowQuery :=
  Action.lift (.invalidQuery model.name) (RowQuery.compile model plan)

/-- The records a plan finds. -/
def find (model : Schema) (plan : Plan) : Action Connection (List Object) := do
  let query ← compile model plan
  let table ← tableOf model
  let now ← Action.now
  if query.allClauses.isBalanced then
    Action.ofExcept ((table.select now query).mapM (decodeRow model.tableColumns))
  else failed .query

/-- The record of a key, which is the last that the plan for the key finds. -/
def fetch (model : Schema) (id : Json) : Action Connection (Option Object) := do
  let plan ← Action.lift .plan (Plan.ofCondition (some [(indexKey, id)]) SelectOptions.plain)
  return (← find model plan).getLast?

/-- Inserts a record and answers it as stored. -/
def insert (model : Schema) (record : Object) : Action Connection Object := do
  let table ← tableOf model
  match table.insert? (encodeRow model.tableColumns record) with
  | none => failed .insert
  | some (table, key) =>
    putTable table
    match ← fetch model (.int key) with
    | some stored => return stored
    | none => throw (.recordNotFound model.name (integerText key))

/-- Writes the changed cells of a key and answers the record as stored. -/
def replace (model : Schema) (id : Json) (record : Object) : Action Connection Object := do
  let cells := encodeAssignments model.tableColumns record
  if !cells.isEmpty then
    let table ← tableOf model
    let accepts (row : Row) : Bool := (RowTest.compare (.column keyColumn) .eq
      (keyColumn.encode id)).holds ⟨0, 0⟩ row
    match table.update? accepts cells with
    | none => failed .update
    | some table => putTable table
  match ← fetch model id with
  | some stored => return stored
  | none => throw (.recordNotFound model.name id.looseText)

/-- The rows that the filter of a plan accepts, in key order; a statement that cannot run
fails at a step. -/
def matching (model : Schema) (query : RowQuery) (clause : Clause) (step : DatabaseStep) :
    Action Connection (Table × (Row → Bool)) := do
  let table ← tableOf model
  let now ← Action.now
  if clause.isBalanced then return (table, query.accepts now) else failed step

/-- Deletes the rows the filter of a plan accepts; order and page do not count. -/
def delete (model : Schema) (plan : Plan) : Action Connection Nat := do
  let query ← compile model plan
  let (table, accepts) ← matching model query query.whereClause .delete
  putTable (table.delete accepts)
  return (table.rows.filter accepts).length

/-- The number of rows the filter of a plan accepts. -/
def count (model : Schema) (plan : Plan) : Action Connection Nat := do
  let query ← compile model plan
  let (table, accepts) ← matching model query query.whereClause .count
  return (table.rows.filter accepts).length

/-- The greatest value of a term among the rows the filter of a plan accepts. -/
def greatest (model : Schema) (path : FieldPath) (plan : Plan) :
    Action Connection (Option Json) := do
  let query ← compile model plan
  let term ← Action.lift (.invalidQuery model.name) (Term.ofPath model path)
  let (table, accepts) ← matching model query (term.clause ++ query.whereClause) .max
  let best := SqlValue.greatest ((table.rows.filter accepts).map term.value)
  return (Cell.value best).scalar?

/-- Drops the table of a model and makes it anew. -/
def reset (model : Schema) : Action Connection Unit := do
  let database ← connect
  match database.recreate? model with
  | none => failed .sync
  | some made => Action.store { (← Action.data) with database := made }

/-- The relational backend. -/
def backend : Backend Connection where
  name := "relational"
  connect := do let _ ← connect
  newKey := return none
  conditionFirst := false
  find := find
  fetch := fetch
  insert := insert
  replace := replace
  delete := delete
  count := count
  greatest := greatest
  reset := reset

end RecordStore.Relational
