/-
Module: RecordStore.Path.Lookup
Purpose: Reading a value through a path.  Reading never fails: a missing member, an
  index past the end and a predicate without match are all absent.
Main exports: Json.step?, Json.walk?, Object.lookup?
-/
import RecordStore.Path.Basic
import RecordStore.Json.Loose

namespace RecordStore

namespace Json

/-- Whether the member `key` of a value reads as `text`. -/
def memberReads (key text : String) : Json → Bool
  | .obj members =>
    match Object.get? members key with
    | some actual => actual.reads text
    | none => false
  | _ => false

/-- The position of the first element whose member reads as given. -/
def findElement? (items : List Json) (key text : String) : Option Nat :=
  items.findIdx? (memberReads key text)

/-- The value one step away. -/
def step? : Json → Segment → Option Json
  | .obj members, .name name => Object.get? members name
  | .arr items, .index index => items[index]?
  | .arr items, .element key text => items.find? (memberReads key text)
  | _, _ => none

/-- The value at the end of several steps. -/
def walk? : Json → List Segment → Option Json
  | value, [] => some value
  | value, segment :: rest => (value.step? segment).bind (walk? · rest)

end Json

namespace Object

/-- The value a path addresses in a record; its first step has to be a name. -/
def lookup? (record : Object) (path : FieldPath) : Option Json :=
  match path.segments with
  | .name name :: rest => (record.get? name).bind (Json.walk? · rest)
  | _ => none

end Object

end RecordStore
