/-
Module: RecordStore.Schema.Registry
Purpose: Sets of models.  Building one reads every definition in order, then resolves the
  relations against the whole set, so that models may point at each other in any order.
Main exports: Definition, Relation, Registry, Registry.build
-/
import RecordStore.Schema.Descriptor

namespace RecordStore

/-- A model as it is defined. -/
structure Definition where
  name : String
  fields : Json
  timestamps : Bool
  hooks : Hooks
deriving Inhabited

/-- The side of a relation a field is on: the keys are stored in this record, or the
related records point back through a field of theirs. -/
inductive RelationSide where
  | owning
  | referenced (backReference : String)
deriving DecidableEq, Repr

/-- A resolved relation field. -/
structure Relation where
  field : String
  target : String
  many : Bool
  side : RelationSide
deriving DecidableEq, Repr

/-- The models in defined order, and the relations of each. -/
structure Registry where
  schemas : List Schema
  relations : List (String × List Relation)
deriving Inhabited

namespace Registry

/-- A model of a name. -/
def find? (schemas : List Schema) (name : String) : Option Schema :=
  schemas.find? fun schema => schema.name == name

/-- The model of a name, or the error that there is none. -/
def get (registry : Registry) (name : String) : Except SchemaError Schema :=
  match find? registry.schemas name with
  | some schema => .ok schema
  | none => .error (.unknown name)

/-- Whether a model is registered. -/
def contains (registry : Registry) (name : String) : Bool :=
  (find? registry.schemas name).isSome

/-- The names of the models in defined order. -/
def names (registry : Registry) : List String := registry.schemas.map Schema.name

/-- The relations of a model in declared order. -/
def relationsOf (registry : Registry) (name : String) : List Relation :=
  ((registry.relations.find? fun entry => entry.1 == name).map Prod.snd).getD []

/-- The relation of a field. -/
def relation? (registry : Registry) (schema field : String) : Option Relation :=
  (registry.relationsOf schema).find? fun relation => relation.field == field

mutual

/-- Refuses relations below the field that is reached by `path`. -/
def checkNested (schema path : String) : Field → Except SchemaError Unit
  | .scalar _ _ => .ok ()
  | .nested _ members _ => checkMembers schema path members

/-- Refuses relations among the members of the nested record reached by `path`. -/
def checkMembers (schema path : String) : List (String × Field) → Except SchemaError Unit
  | [] => .ok ()
  | (name, field) :: rest =>
    let inner := path ++ "." ++ name
    if field.isRelation then .error (.invalidDescriptor schema inner .nestedRelation)
    else
      match checkNested schema inner field with
      | .error error => .error error
      | .ok () => checkMembers schema path rest

end

/-- Refuses relations below any of the top-level fields. -/
def checkFields (schema : String) : List (String × Field) → Except SchemaError Unit
  | [] => .ok ()
  | (name, field) :: rest =>
    match checkNested schema name field with
    | .error error => .error error
    | .ok () => checkFields schema rest

/-- The model of one definition. -/
def define (definition : Definition) : Except SchemaError Schema :=
  match Field.parseAll definition.name definition.fields with
  | .error error => .error error
  | .ok fields =>
    (checkFields definition.name fields).map fun () =>
      ⟨definition.name, fields, definition.timestamps, definition.hooks⟩

/-- The models of the definitions, after those already `defined`. -/
def collect (defined : List Schema) : List Definition → Except SchemaError (List Schema)
  | [] => .ok defined
  | definition :: rest =>
    if (find? defined definition.name).isSome then .error (.duplicate definition.name)
    else
      match define definition with
      | .error error => .error error
      | .ok schema => collect (defined ++ [schema]) rest

/-- The first stored field of a model that points at another model. -/
def backReference? (target : Schema) (name : String) : Option String :=
  (target.fields.find? fun entry => entry.2.isOwning && entry.2.traits.target == some name).map
    Prod.fst

/-- The relation of a field that points at a model. -/
def relate (schemas : List Schema) (schema : Schema) (name : String) (field : Field) :
    Except SchemaError Relation :=
  let targetName := field.traits.target.getD ""
  match find? schemas targetName with
  | none => .error (.missingTarget schema.name name targetName)
  | some target =>
    if field.isOwning then .ok ⟨name, targetName, field.isList, .owning⟩
    else
      match backReference? target schema.name with
      | some back => .ok ⟨name, targetName, field.isList, .referenced back⟩
      | none => .error (.missingBackReference schema.name name targetName)

/-- The relations of a model. -/
def relateAll (schemas : List Schema) (schema : Schema) : Except SchemaError (List Relation) :=
  schema.relationFields.mapM fun entry => relate schemas schema entry.1 entry.2

/-- Builds the set of models of the definitions. -/
def build (definitions : List Definition) : Except SchemaError Registry :=
  match collect [] definitions with
  | .error error => .error error
  | .ok schemas =>
    (schemas.mapM fun schema => (relateAll schemas schema).map fun found => (schema.name, found)).map
      fun relations => ⟨schemas, relations⟩

end Registry

end RecordStore
