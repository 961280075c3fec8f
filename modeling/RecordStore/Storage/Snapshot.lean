/-
Module: RecordStore.Storage.Snapshot
Purpose: The texts in which kept stores are written to disk: a JSON object for documents,
  and one for a database.  Reals are written by their sign and their word, so that every
  double comes back as it was.
Main exports: Document.Trees.snapshot, Document.Trees.ofSnapshot?, Database.snapshot,
  Database.ofSnapshot?
-/
import RecordStore.Document.Tree
import RecordStore.Json.Printer
import RecordStore.Json.Reader
import RecordStore.Relational.Database

namespace RecordStore

/-- An object with a value for each entry. -/
def namedValues (encode : α → Json) (entries : List (String × α)) : Json :=
  .obj (entries.map fun entry => (entry.1, encode entry.2))

/-- The entries of an object, in their order. -/
def namedValues? (decode : Json → Option α) : Json → Option (List (String × α))
  | .obj members => members.mapM fun (member : String × Json) =>
      (decode member.2).map fun value => (member.1, value)
  | _ => none

/-- The values of an array. -/
def valuesOf? (decode : Json → Option α) : Json → Option (List α)
  | .arr items => items.mapM decode
  | _ => none

namespace Document.Trees

/-- The text of documents. -/
def snapshot (trees : Trees) : String := (namedValues (namedValues Json.str) trees).text

/-- The documents of a text. -/
def ofSnapshot? (text : String) : Option Trees :=
  (Json.parse? text).bind (namedValues? (namedValues? Json.str?))

end Document.Trees

namespace SqlValue

/-- A cell as a JSON value. -/
def snapshot : SqlValue → Json
  | .null => .null
  | .int value => .int value
  | .real x => .arr [.bool x.negative, .int x.word]
  | .text value => .str value

/-- The cell of a JSON value. -/
def ofSnapshot? : Json → Option SqlValue
  | .null => some .null
  | .num (.int value) => some (.int value)
  | .arr [.bool negative, .num (.int word)] => some (.real ⟨negative, word.toNat⟩)
  | .str value => some (.text value)
  | _ => none

end SqlValue

namespace ColumnKind

/-- The word for a kind. -/
def word : ColumnKind → String
  | .key => "key"
  | .id => "id"
  | .text => "text"
  | .numeric => "numeric"
  | .boolean => "boolean"
  | .json => "json"

/-- The kind of a word. -/
def ofWord? (word : String) : Option ColumnKind :=
  [ColumnKind.key, .id, .text, .numeric, .boolean, .json].find? fun kind => kind.word == word

end ColumnKind

namespace Column

/-- A column as a JSON value. -/
def snapshot (column : Column) : Json :=
  .arr [.str column.name, .str column.kind.word,
    Json.ofOption (column.element.map fun type => .str type.text), .bool column.indexed]

/-- The column of a JSON value. -/
def ofSnapshot? : Json → Option Column
  | .arr [.str name, .str word, element, .bool indexed] =>
    (ColumnKind.ofWord? word).map fun kind =>
      ⟨name, kind, element.str?.bind FieldType.ofTag?, indexed⟩
  | _ => none

end Column

namespace Table

/-- A table as a JSON value. -/
def snapshot (table : Table) : Json :=
  .arr [.str table.name, .arr (table.columns.map Column.snapshot),
    .arr (table.rows.map (namedValues SqlValue.snapshot)), .int table.last]

/-- The table of a JSON value. -/
def ofSnapshot? : Json → Option Table
  | .arr [.str name, columns, rows, .num (.int last)] => do
    let columns ← valuesOf? Column.ofSnapshot? columns
    let rows ← valuesOf? (namedValues? SqlValue.ofSnapshot?) rows
    return ⟨name, columns, rows, last⟩
  | _ => none

end Table

namespace Database

/-- The text of a database. -/
def snapshot (database : Database) : String :=
  (Json.arr [.arr (database.tables.map Table.snapshot), .arr (database.indexes.map .str)]).text

/-- The database of a text. -/
def ofSnapshot? (text : String) : Option Database :=
  match Json.parse? text with
  | some (.arr [tables, indexes]) => do
    let tables ← valuesOf? Table.ofSnapshot? tables
    let indexes ← valuesOf? Json.str? indexes
    return ⟨tables, indexes⟩
  | _ => none

end Database

end RecordStore
