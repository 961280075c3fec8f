/-
Module: RecordStore.Schema.Resolution
Purpose: The declared type at the end of a path, if the model describes that place.
Main exports: Resolved, Schema.resolve?
-/
import RecordStore.Schema.Basic

namespace RecordStore

/-- The type at the end of a path, and whether the path addresses a whole declared list. -/
structure Resolved where
  type : FieldType
  isList : Bool
deriving DecidableEq, Repr, Inhabited

/-- Values at this place behave as arrays. -/
def Resolved.isArrayLike (resolved : Resolved) : Bool :=
  resolved.isList || resolved.type == .array

/-- Where a resolving walk stands: on a declared field, on an element of a declared list,
or inside a value whose structure is not declared. -/
inductive TypeCursor where
  | field (field : Field)
  | element (field : Field)
  | undeclared (type : FieldType)
deriving Inhabited

namespace TypeCursor

/-- From one value of a field into a member of it. -/
def member? (declared : Field) (key : String) : Option TypeCursor :=
  match declared with
  | .nested _ members _ => (Field.find? members key).map .field
  | .scalar type _ => if type.isOpaque then some (.undeclared type) else none

/-- One step of the walk. -/
def step? (cursor : TypeCursor) (segment : Segment) : Option TypeCursor :=
  match cursor with
  | .field declared =>
    match segment with
    | .name key => if declared.isList then none else member? declared key
    | _ =>
      if declared.isList then some (.element declared)
      else if declared.type == .array then some (.undeclared .any)
      else none
  | .element declared =>
    match segment with
    | .name key => member? declared key
    | _ => if declared.type == .array then some (.undeclared .any) else none
  | .undeclared type =>
    match segment with
    | .name _ => if type.isOpaque then some (.undeclared type) else none
    | _ => if type.isOpaque || type == .array then some (.undeclared .any) else none

/-- The walk over several steps. -/
def walk? (cursor : TypeCursor) : List Segment → Option TypeCursor
  | [] => some cursor
  | segment :: rest => (cursor.step? segment).bind (walk? · rest)

/-- The type where the walk ends; a path that descends addresses the elements of a list. -/
def resolved (descend : Bool) : TypeCursor → Resolved
  | .field declared => ⟨declared.type, declared.isList && !descend⟩
  | .element declared => ⟨declared.type, false⟩
  | .undeclared type => ⟨type, false⟩

end TypeCursor

/-- The place of a top-level name. -/
def Schema.cursor? (schema : Schema) (name : String) : Option TypeCursor :=
  match schema.field? name with
  | some field => some (.field field)
  | none => (schema.implicitType? name).map .undeclared

/-- The type a path addresses, or nothing when the model does not describe that place. -/
def Schema.resolve? (schema : Schema) (path : FieldPath) : Option Resolved :=
  match path.segments with
  | .name name :: rest =>
    ((schema.cursor? name).bind (·.walk? rest)).map (TypeCursor.resolved path.descend)
  | _ => none

end RecordStore
