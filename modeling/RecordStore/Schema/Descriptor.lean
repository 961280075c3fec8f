/-
Module: RecordStore.Schema.Descriptor
Purpose: Reading field declarations from JSON.  A declaration is a type tag, an object
  whose `type` is a type tag, a list of one declaration, or any other object, which
  declares a nested record.
Main exports: Field.parse, Field.parseAll
-/
import RecordStore.Schema.Basic

namespace RecordStore

/-- The key a set of fields may carry beside its fields. -/
def modelNameMarker : String := "__modelName"

namespace Field

/-- The type tag of a typed object. -/
def tagOf? (members : Object) : Option FieldType :=
  ((Object.get? members "type").bind Json.str?).bind FieldType.ofTag?

/-- The operations named in a list of words. -/
def operations (words : List String) : Except DescriptorFault (List Operation) :=
  words.mapM fun word =>
    match Operation.ofWord? word with
    | some operation => .ok operation
    | none => .error (.unknownOperation word)

/-- The operations an `excludes` entry names. -/
def excludes (value : Json) : Except DescriptorFault (List Operation) :=
  match value with
  | .str word => operations [word]
  | .arr items =>
    match items.mapM Json.str? with
    | some words => operations words
    | none => .error .excludesEntry
  | _ => .error .excludesShape

/-- The flag under a key. -/
def flag (key : String) (value : Json) : Except DescriptorFault Bool :=
  match value.bool? with
  | some b => .ok b
  | none => .error (.notBoolean key)

/-- The traits with one entry of a typed object read into them. -/
def readTrait (traits : Traits) (key : String) (value : Json) : Except DescriptorFault Traits :=
  match key with
  | "ref" =>
    match value.str? with
    | some target => .ok { traits with target := some target }
    | none => .error (.notText key)
  | "belong" => (flag key value).map fun b => { traits with belongs := some b }
  | "index" => (flag key value).map fun b => { traits with indexed := b }
  | "arrayOf" => (flag key value).map fun b => { traits with isList := b }
  | "default" => .ok { traits with initial := some value }
  | "excludes" =>
    (excludes value).map fun more => { traits with excluded := traits.excluded ++ more }
  | _ => .ok traits

/-- The traits of a typed object. -/
def readTraits (members : Object) : Except DescriptorFault Traits :=
  members.foldlM (fun traits member => readTrait traits member.1 member.2) Traits.plain

/-- A fault placed at a field. -/
def located (schema name : String) : Except DescriptorFault α → Except SchemaError α
  | .ok value => .ok value
  | .error fault => .error (.invalidDescriptor schema name fault)

mutual

/-- Reads the declaration of the field `name` of the model or nested record `schema`. -/
def parse (schema name : String) : Json → Except SchemaError Field
  | .str tag =>
    match FieldType.ofTag? tag with
    | some type => .ok (.scalar type Traits.plain)
    | none => .error (.invalidDescriptor schema name (.unknownType tag))
  | .arr items => parseList schema name items
  | .obj members =>
    match tagOf? members with
    | some type => located schema name ((readTraits members).map (.scalar type ·))
    | none =>
      let inner := schema ++ "." ++ name
      (parseMembers inner members).map fun fields => .nested inner fields false
  | .null => .error (.invalidDescriptor schema name .shape)
  | .bool _ => .error (.invalidDescriptor schema name .shape)
  | .num _ => .error (.invalidDescriptor schema name .shape)

/-- Reads a list declaration, which holds one declaration that is no list itself. -/
def parseList (schema name : String) : List Json → Except SchemaError Field
  | [item] =>
    if item.isArr then .error (.invalidDescriptor schema name .nestedList)
    else
      match parse schema name item with
      | .error error => .error error
      | .ok field =>
        if field.isList then .error (.invalidDescriptor schema name .nestedList)
        else .ok field.asList
  | _ => .error (.invalidDescriptor schema name .listLength)

/-- Reads declared fields in order.  The marker and the key field are passed over. -/
def parseMembers (schema : String) :
    List (String × Json) → Except SchemaError (List (String × Field))
  | [] => .ok []
  | (name, raw) :: rest =>
    if name = modelNameMarker || name = idField then parseMembers schema rest
    else
      match parse schema name raw with
      | .error error => .error error
      | .ok field => (parseMembers schema rest).map fun more => (name, field) :: more

end

/-- Reads the fields of a model. -/
def parseAll (schema : String) (fields : Json) : Except SchemaError (List (String × Field)) :=
  match fields with
  | .obj members => parseMembers schema members
  | _ => .error (.invalidDescriptor schema "" .fieldsNotObject)

end Field

end RecordStore
