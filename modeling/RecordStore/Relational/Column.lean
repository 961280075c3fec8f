/-
Module: RecordStore.Relational.Column
Purpose: The columns of the table that stores the records of a model, and the codec of
  their cells.  Lists, objects and nested records are stored as JSON text.
Main exports: ColumnKind, Column, Schema.tableColumns, Column.encode, Column.decode
-/
import RecordStore.Relational.Value
import RecordStore.Schema.Basic
import RecordStore.Json.Reader
import RecordStore.Text.Utf8

namespace RecordStore

/-- How a column is declared and how values go in and out of it. -/
inductive ColumnKind where
  /-- The key that the table assigns. -/
  | key
  /-- The key of another record. -/
  | id
  | text
  | numeric
  | boolean
  /-- JSON text. -/
  | json
deriving DecidableEq, Repr, Inhabited

namespace ColumnKind

/-- The kind of the column of a field. -/
def ofField (field : Field) : ColumnKind :=
  match field with
  | .nested _ _ _ => .json
  | .scalar type traits =>
    if traits.isList then .json
    else
      match type with
      | .id => .id
      | .number => .numeric
      | .decimal => .numeric
      | .boolean => .boolean
      | .array => .json
      | .object => .json
      | .any => .json
      | .string => .text
      | .longText => .text
      | .dateTime => .text

/-- The declaration of a column. -/
def declaration : ColumnKind → String
  | .key => "INTEGER PRIMARY KEY AUTOINCREMENT"
  | .id => "NUMERIC"
  | .numeric => "NUMERIC"
  | .boolean => "INTEGER"
  | .text => "TEXT"
  | .json => "TEXT"

/-- The affinity that goes with the declaration. -/
def affinity : ColumnKind → Affinity
  | .text => .text
  | .json => .text
  | _ => .numeric

end ColumnKind

/-- A column: its name, its kind, the type of the elements if it stores a list, and
whether it is indexed. -/
structure Column where
  name : String
  kind : ColumnKind
  element : Option FieldType
  indexed : Bool
deriving DecidableEq, Repr, Inhabited

/-- The column of the key. -/
def keyColumn : Column := ⟨idField, .key, none, false⟩

/-- The column of a stored field. -/
def Column.ofField (entry : String × Field) : Column :=
  ⟨entry.1, ColumnKind.ofField entry.2,
    if entry.2.isList then some entry.2.type else none, entry.2.traits.indexed⟩

/-- The column of a time. -/
def Column.ofTime (name : String) : Column := ⟨name, .text, none, false⟩

/-- The columns of a model's table: the key, the stored fields, the times. -/
def Schema.tableColumns (schema : Schema) : List Column :=
  keyColumn :: (schema.storedFields.map Column.ofField ++
    if schema.timestamps then [Column.ofTime createdAtField, Column.ofTime updatedAtField] else [])

/-- A key as a parameter: numbers and integer texts are numbers. -/
def SqlValue.ofKey (value : Json) : SqlValue :=
  match value with
  | .num n => SqlValue.ofNumber n
  | .str written =>
    match Numeral.int64? (Text.trim written) with
    | some i => .int i
    | none => .text written
  | other => .text other.looseText

mutual

/-- A list of keys in which integer texts become numbers, at any depth of lists. -/
def normalizeKeys : Json → Json
  | .arr items => .arr (normalizeKeyItems items)
  | .str text =>
    match Numeral.int64? (Text.trim text) with
    | some i => .int i
    | none => .str text
  | .null => .null
  | .bool b => .bool b
  | .num n => .num n
  | .obj members => .obj members

/-- Every element of a list normalised. -/
def normalizeKeyItems : List Json → List Json
  | [] => []
  | item :: rest => normalizeKeys item :: normalizeKeyItems rest

end

/-- What a cell can hold when it is read: besides the values that are written, text that
is not well-formed and raw bytes. -/
inductive Cell where
  | value (value : SqlValue)
  | malformedText
  | blob (bytes : List Nat)
deriving Repr, Inhabited

/-- An untyped cell as a value; reals that are not finite are `null`. -/
def Cell.scalar? : Cell → Option Json
  | .value .null => some .null
  | .value (.int i) => some (.int i)
  | .value (.real x) =>
    match Number.ofBinary64? x with
    | some n => some (.num n)
    | none => some .null
  | .value (.text text) => some (.str text)
  | .malformedText => none
  | .blob bytes => some (.str (Utf8.decodeLossy bytes))

namespace Column

/-- A number in a truth column. -/
def encodeBoolean (value : Json) : SqlValue :=
  match value with
  | .bool b => SqlValue.ofBool b
  | .num n => SqlValue.ofBool (!n.toBinary64.isZero)
  | .str text =>
    if Text.sameFolded text "true" then .int 1
    else if Text.sameFolded text "false" then .int 0
    else .text text
  | other => .text other.looseText

/-- A value in a number column. -/
def encodeNumeric (value : Json) : SqlValue :=
  match value with
  | .num n => SqlValue.ofNumber n
  | .str text => (SqlValue.ofNumericText? text).getD (.text text)
  | .bool b => SqlValue.ofBool b
  | other => .text other.text

/-- The parameter that stores a value in a column. -/
def encode (column : Column) (value : Json) : SqlValue :=
  match value with
  | .null => .null
  | _ =>
    match column.kind with
    | .key => SqlValue.ofKey value
    | .id => SqlValue.ofKey value
    | .numeric => encodeNumeric value
    | .boolean => encodeBoolean value
    | .text => .text value.looseText
    | .json =>
      .text (if column.element = some .id then normalizeKeys value else value).text

/-- The value a cell of a column stands for; none when its text is not well-formed. -/
def decode (column : Column) (cell : Cell) : Option Json :=
  match column.kind, cell with
  | .boolean, .value (.int i) => some (.bool (i != 0))
  | .json, .value (.text text) => some ((Json.parse? text).getD (.str text))
  | _, _ => cell.scalar?

/-- The affinity of a column. -/
def affinity (column : Column) : Affinity := column.kind.affinity

end Column

end RecordStore
