/-
Module: RecordStore.Relational.Database
Purpose: Tables of rows in the order of their keys.  A table assigns the key after the
  largest it ever held, stores values by the affinity of their columns, and refuses a key
  that is no integer or is taken.  Names are compared without ASCII case.
Main exports: Table, Table.insert?, Table.update?, Table.delete, Database, Database.openAll
-/
import RecordStore.Relational.Evaluation
import RecordStore.Relational.Statement

namespace RecordStore

/-- A table: its columns, its rows in key order, and the largest key it ever held. -/
structure Table where
  name : String
  columns : List Column
  rows : List Row
  last : Int
deriving DecidableEq, Repr, Inhabited

/-- The key of a row. -/
def Row.key (row : Row) : Int :=
  match row.get idField with
  | .int key => key
  | _ => 0

namespace Table

/-- A table without rows. -/
def empty (schema : Schema) : Table := ⟨schema.name, schema.tableColumns, [], 0⟩

/-- Whether a key is taken. -/
def holdsKey (table : Table) (key : Int) : Bool := table.rows.any fun row => row.key == key

/-- The key of a new row: the given one if it is an integer, the next one if none is given. -/
def newKey? (table : Table) (given : SqlValue) : Option Int :=
  match Affinity.numeric.convert given with
  | .null => if table.last < maxInt64 then some (table.last + 1) else none
  | .int key => some key
  | _ => none

/-- The cell a column stores of given values, `null` if it is given none. -/
def storedCell (cells : Row) (key : Int) (column : Column) : String × SqlValue :=
  (column.name,
    if column.kind == .key then .int key
    else column.affinity.convert ((cells.cell? column.name).getD .null))

/-- Whether every given value has a column. -/
def hasColumns (table : Table) (cells : Row) : Bool :=
  cells.all fun cell => table.columns.any fun column => column.name == cell.1

/-- A row put into its place by key. -/
def insertRow (row : Row) : List Row → List Row
  | [] => [row]
  | first :: rest =>
    if row.key < first.key then row :: first :: rest else first :: insertRow row rest

/-- The table with a new row of given values, and its key. -/
def insert? (table : Table) (cells : Row) : Option (Table × Int) :=
  match table.newKey? ((cells.cell? idField).getD .null) with
  | none => none
  | some key =>
    if table.holdsKey key || !table.hasColumns cells then none
    else
      let row := table.columns.map (storedCell cells key)
      some ({ table with rows := insertRow row table.rows, last := max table.last key }, key)

/-- The rows a query returns. -/
def select (table : Table) (now : Instant) (query : RowQuery) : List Row :=
  query.run now table.rows

/-- The table with given cells written over those of the rows that pass a test. -/
def update? (table : Table) (accepts : Row → Bool) (cells : Row) : Option Table :=
  if table.hasColumns cells then
    some { table with
      rows := table.rows.map fun row =>
        if accepts row then table.columns.map (storedCell (cells ++ row) row.key) else row }
  else none

/-- The table without the rows that pass a test. -/
def delete (table : Table) (accepts : Row → Bool) : Table :=
  { table with rows := table.rows.filter fun row => !accepts row }

end Table

/-- The tables of a database and the names of its indexes. -/
structure Database where
  tables : List Table
  indexes : List String
deriving DecidableEq, Repr, Inhabited

namespace Database

/-- A database without tables. -/
def empty : Database := ⟨[], []⟩

/-- The table of a name. -/
def table? (database : Database) (name : String) : Option Table :=
  database.tables.find? fun table => Text.sameFolded table.name name

/-- Whether an index has the name. -/
def holdsIndex (database : Database) (name : String) : Bool :=
  database.indexes.any (Text.sameFolded name)

/-- The database with a table put in place of the one of its name. -/
def put (database : Database) (table : Table) : Database :=
  { database with
    tables := database.tables.map fun other =>
      if Text.sameFolded other.name table.name then table else other }

/-- Names that begin like those of the database's own tables. -/
def isReserved (name : String) : Bool :=
  (Text.lower name).toList.take 7 == ['s', 'q', 'l', 'i', 't', 'e', '_']

/-- Whether no two names are equal but for case. -/
def areDistinct : List String → Bool
  | [] => true
  | name :: rest => !rest.any (Text.sameFolded name) && areDistinct rest

/-- The database with the table of a model, made unless it exists. -/
def createTable? (database : Database) (schema : Schema) : Option Database :=
  if isReserved schema.name then none
  else if (database.table? schema.name).isSome then some database
  else if database.holdsIndex schema.name then none
  else if areDistinct (schema.tableColumns.map Column.name) then
    some { database with tables := database.tables ++ [Table.empty schema] }
  else none

/-- The database with an index, made unless it exists. -/
def createIndex? (database : Database) (name : String) : Option Database :=
  if (database.table? name).isSome then none
  else if database.holdsIndex name then some database
  else some { database with indexes := database.indexes ++ [name] }

/-- The names of the indexes of a model. -/
def indexNames (schema : Schema) : List String :=
  (schema.tableColumns.filter Column.indexed).map fun column => indexName schema.name column.name

/-- Runs steps in turn; a step that fails leaves the database of the steps before it. -/
def runSteps (database : Database) : List (Database → Option Database) → Bool × Database
  | [] => (true, database)
  | step :: rest =>
    match step database with
    | some next => runSteps next rest
    | none => (false, database)

/-- The steps that make the table of a model and its indexes. -/
def creationSteps (schema : Schema) : List (Database → Option Database) :=
  (fun database => database.createTable? schema) ::
    (indexNames schema).map fun name => fun database => database.createIndex? name

/-- The database with the tables of all models, and whether all of them could be made. -/
def openAll (database : Database) (schemas : List Schema) : Bool × Database :=
  database.runSteps (schemas.flatMap creationSteps)

/-- The database with the table of a model dropped and made anew. -/
def recreate? (database : Database) (schema : Schema) : Option Database :=
  let dropped : Database :=
    ⟨database.tables.filter fun table => !Text.sameFolded table.name schema.name,
      database.indexes.filter fun name => !(indexNames schema).any (Text.sameFolded name)⟩
  match dropped.runSteps (creationSteps schema) with
  | (true, made) => some made
  | (false, _) => none

end Database

end RecordStore
