/-
Module: RecordStore.Schema.Basic
Purpose: Models: typed fields in declared order, the bookkeeping fields a record carries
  without declaring them, and the hooks around writes.
Main exports: FieldType, Operation, Field, Hooks, Schema, Schema.columnsFor, Schema.path
-/
import RecordStore.Path.Parser
import RecordStore.Json.Basic

namespace RecordStore

/-- The field that holds the key of a record. -/
def idField : String := "id"

/-- The fields that hold the times of creation and of the last update. -/
def createdAtField : String := "createdAt"
def updatedAtField : String := "updatedAt"

/-- The declared type of a field. -/
inductive FieldType where
  | id
  | string
  | longText
  | number
  | decimal
  | dateTime
  | boolean
  | array
  | object
  | any
deriving DecidableEq, Repr, Inhabited

namespace FieldType

/-- The name of a type. -/
def text : FieldType → String
  | .id => "Id"
  | .string => "String"
  | .longText => "LongStr"
  | .number => "Number"
  | .decimal => "Decimal"
  | .dateTime => "DateTime"
  | .boolean => "Boolean"
  | .array => "Array"
  | .object => "Object"
  | .any => "Any"

/-- The type a tag names, in any case. -/
def ofTag? (tag : String) : Option FieldType :=
  match Text.lower tag with
  | "id" => some .id
  | "string" => some .string
  | "longstr" => some .longText
  | "number" => some .number
  | "decimal" => some .decimal
  | "datetime" => some .dateTime
  | "date" => some .dateTime
  | "boolean" => some .boolean
  | "array" => some .array
  | "object" => some .object
  | "map" => some .object
  | "any" => some .any
  | _ => none

/-- The types that hold text. -/
def isText : FieldType → Bool
  | .string => true
  | .longText => true
  | _ => false

/-- The types that hold numbers. -/
def isNumeric : FieldType → Bool
  | .number => true
  | .decimal => true
  | _ => false

/-- Containers whose inner structure is not declared. -/
def isOpaque : FieldType → Bool
  | .object => true
  | .any => true
  | _ => false

end FieldType

/-- The operations a field can be excluded from. -/
inductive Operation where
  | select
  | create
  | update
deriving DecidableEq, Repr, Inhabited

/-- The operation a word names, in any case. -/
def Operation.ofWord? (word : String) : Option Operation :=
  match Text.lower word with
  | "select" => some .select
  | "create" => some .create
  | "update" => some .update
  | _ => none

/-- What is declared about a field beside its type. -/
structure Traits where
  /-- The model the field points at. -/
  target : Option String
  /-- The field holds a list of values of its type. -/
  isList : Bool
  /-- `some false` marks the referenced side of a relation. -/
  belongs : Option Bool
  /-- Operations that leave the field alone. -/
  excluded : List Operation
  /-- The value of a created record that gives none. -/
  initial : Option Json
  /-- The field is indexed. -/
  indexed : Bool
deriving Repr, Inhabited

/-- The traits of a field of which nothing is declared. -/
def Traits.plain : Traits := ⟨none, false, none, [], none, false⟩

/-- A declared field: a value of a type, or a nested record with fields of its own. -/
inductive Field where
  | scalar (type : FieldType) (traits : Traits)
  | nested (name : String) (members : List (String × Field)) (isList : Bool)
deriving Inhabited

namespace Field

/-- The type of the field or, in a list, of its elements; nested records are objects. -/
def type : Field → FieldType
  | .scalar type _ => type
  | .nested _ _ _ => .object

/-- What is declared about the field. -/
def traits : Field → Traits
  | .scalar _ traits => traits
  | .nested _ _ isList => { Traits.plain with isList := isList }

/-- Whether the field holds a list. -/
def isList : Field → Bool
  | .scalar _ traits => traits.isList
  | .nested _ _ isList => isList

/-- Whether the field points at a model. -/
def isRelation (field : Field) : Bool := field.traits.target.isSome

/-- Whether the related keys are stored in the record itself. -/
def isOwning (field : Field) : Bool := field.traits.belongs != some false

/-- Fields on the referenced side of a relation are never stored. -/
def isVirtual (field : Field) : Bool := field.isRelation && !field.isOwning

/-- Whether an operation leaves the field alone. -/
def excludedFrom (field : Field) (operation : Operation) : Bool :=
  field.traits.excluded.contains operation

/-- The same field as a list. -/
def asList : Field → Field
  | .scalar type traits => .scalar type { traits with isList := true }
  | .nested name members _ => .nested name members true

/-- The field of a name among declared fields. -/
def find? : List (String × Field) → String → Option Field
  | [], _ => none
  | entry :: rest, name => if entry.1 = name then some entry.2 else find? rest name

end Field

/-- When a hook runs; `save` stands for both events. -/
inductive HookEvent where
  | create
  | update
  | save
deriving DecidableEq, Repr, Inhabited

/-- Whether a hook registered for one event runs at another. -/
def HookEvent.covers (registered event : HookEvent) : Bool :=
  registered == event || registered == .save

/-- What runs around a write: changes of the record before it, in order, and the names
of the listeners that are told the stored record after it. -/
structure Hooks where
  before : List (HookEvent × (Object → Object))
  after : List (HookEvent × String)
deriving Inhabited

namespace Hooks

/-- A model without hooks. -/
def none : Hooks := ⟨[], []⟩

/-- The record after every change registered for an event. -/
def runBefore (hooks : Hooks) (event : HookEvent) (record : Object) : Object :=
  hooks.before.foldl
    (fun record hook => if hook.1.covers event then hook.2 record else record) record

/-- The listeners of an event with the record they are told. -/
def notices (hooks : Hooks) (event : HookEvent) (record : Object) : List (String × Object) :=
  (hooks.after.filter fun hook => hook.1.covers event).map fun hook => (hook.2, record)

end Hooks

/-- A model: its name, its fields in declared order, whether its records carry times,
and its hooks. -/
structure Schema where
  name : String
  fields : List (String × Field)
  timestamps : Bool
  hooks : Hooks
deriving Inhabited

namespace Schema

/-- A declared field. -/
def field? (schema : Schema) (name : String) : Option Field := Field.find? schema.fields name

/-- The type of a bookkeeping field. -/
def implicitType? (schema : Schema) (name : String) : Option FieldType :=
  if name = idField then some .id
  else if schema.timestamps && (name == createdAtField || name == updatedAtField) then
    some .dateTime
  else none

/-- Whether a name is a declared or bookkeeping field. -/
def hasField (schema : Schema) (name : String) : Bool :=
  (schema.field? name).isSome || (schema.implicitType? name).isSome

/-- The fields a record stores. -/
def storedFields (schema : Schema) : List (String × Field) :=
  schema.fields.filter fun entry => !entry.2.isVirtual

/-- The fields that point at a model. -/
def relationFields (schema : Schema) : List (String × Field) :=
  schema.fields.filter fun entry => entry.2.isRelation

/-- Reads a path in which the name of a field of this model stands for that field. -/
def path (schema : Schema) (raw : String) : Except PathError FieldPath :=
  FieldPath.parseWith schema.hasField raw

/-- The columns of an operation: the key, the fields not excluded from it, the times. -/
def columnsFor (schema : Schema) (operation : Operation) : List String :=
  idField :: ((schema.fields.filter fun entry => !entry.2.excludedFrom operation).map Prod.fst ++
    if schema.timestamps then [createdAtField, updatedAtField] else [])

end Schema

/-- What is wrong with the declaration of a field. -/
inductive DescriptorFault where
  | fieldsNotObject
  | listLength
  | nestedList
  | unknownType (tag : String)
  | shape
  | notText (key : String)
  | notBoolean (key : String)
  | excludesShape
  | excludesEntry
  | unknownOperation (word : String)
  | nestedRelation
deriving DecidableEq, Repr

/-- The words for a fault. -/
def DescriptorFault.reason : DescriptorFault → String
  | .fieldsNotObject => "model fields must be a JSON object"
  | .listLength => "list descriptor must hold exactly one element descriptor"
  | .nestedList => "nested list descriptors are not supported"
  | .unknownType tag => "Unknown type tag: " ++ tag
  | .shape => "expected a type tag, an object or a one-element list"
  | .notText key => "'" ++ key ++ "' must be a string"
  | .notBoolean key => "'" ++ key ++ "' must be a boolean"
  | .excludesShape => "'excludes' must be a string or a list of strings"
  | .excludesEntry => "'excludes' entries must be strings"
  | .unknownOperation word => "Unknown operation: " ++ word
  | .nestedRelation => "relations are only allowed on top-level fields"

/-- Why a set of models is refused or a model is not found. -/
inductive SchemaError where
  | invalidDescriptor (schema field : String) (fault : DescriptorFault)
  | duplicate (name : String)
  | missingTarget (schema field target : String)
  | missingBackReference (schema field target : String)
  | unknown (name : String)
deriving DecidableEq, Repr

/-- The message of a schema error. -/
def SchemaError.message : SchemaError → String
  | .invalidDescriptor schema field fault =>
    "Invalid descriptor for '" ++ schema ++ "." ++ field ++ "': " ++ fault.reason
  | .duplicate name => "Schema '" ++ name ++ "' is already defined"
  | .missingTarget schema field target =>
    "Field '" ++ schema ++ "." ++ field ++ "' references unknown schema '" ++ target ++ "'"
  | .missingBackReference schema field target =>
    "Field '" ++ schema ++ "." ++ field ++ "' needs a field in '" ++ target ++
      "' referencing '" ++ schema ++ "'"
  | .unknown name => "Unknown schema: " ++ name

end RecordStore
