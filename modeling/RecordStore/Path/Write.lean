/-
Module: RecordStore.Path.Write
Purpose: Writing through a path.  A write first checks the whole path without touching
  the record; then it walks again, makes the objects that are missing under names, and
  hands the place it ends at to an edit.  Each operation answers a result together with
  the record it leaves.
Main exports: Place, checkWritable, descendTo, Object.edit, Object.set, Object.remove
-/
import RecordStore.Path.Lookup

namespace RecordStore

/-- The place a write ends at: a member of an object, present or not, or a present
element of an array. -/
inductive Place where
  | member (owner : Object) (key : String)
  | element (items : List Json) (index : Nat)
deriving Repr

namespace Place

/-- The value stored at a place. -/
def current : Place → Option Json
  | .member owner key => owner.get? key
  | .element items index => items[index]?

/-- The container of a place as it stands. -/
def container : Place → Json
  | .member owner _ => .obj owner
  | .element items _ => .arr items

/-- The container with a value at the place. -/
def assign (value : Json) : Place → Json
  | .member owner key => .obj (owner.insert key value)
  | .element items index => .arr (items.set index value)

/-- The container without the place: the member is erased, the element taken out. -/
def remove : Place → Json
  | .member owner key => .obj (owner.erase key)
  | .element items index => .arr (items.eraseIdx index)

end Place

/-- What the checking walk stands on: an object, which a write may still have to make,
or an array. -/
inductive View where
  | object (members : Option Object)
  | array (items : List Json)

/-- The child a checking step leads to; `none` when the write has to make it. -/
def checkStep (path : FieldPath) (view : View) (segment next : Segment) :
    Except PathError (Option Json) :=
  match view, segment with
  | .object members, .name key =>
    let child := members.bind (·.get? key)
    if next.isSelector && (child.map Json.isNull).getD true then .error (.notFound path.raw)
    else .ok child
  | .array items, .index index =>
    match items[index]? with
    | some item => .ok (some item)
    | none => .error (.indexOutOfRange path.raw index items.length)
  | .array items, .element key text =>
    match items.find? (Json.memberReads key text) with
    | some item => .ok (some item)
    | none => .error (.notFound path.raw)
  | .object _, _ => .error (.typeMismatch path.raw .array)
  | .array _, _ => .error (.typeMismatch path.raw .object)

/-- The view of a child as the container that the next step needs. -/
def checkContainer (path : FieldPath) (child : Option Json) (next : Segment) :
    Except PathError View :=
  if next.isSelector then
    match child with
    | some (.arr items) => .ok (.array items)
    | _ => .error (.typeMismatch path.raw .array)
  else
    match child with
    | none => .ok (.object none)
    | some .null => .ok (.object none)
    | some (.obj members) => .ok (.object (some members))
    | some _ => .error (.typeMismatch path.raw .object)

/-- Whether the last step can be written in a view. -/
def checkLast (path : FieldPath) (view : View) (segment : Segment) : Except PathError Unit :=
  match view, segment with
  | .object _, .name _ => .ok ()
  | .array items, .index index =>
    if index < items.length then .ok () else .error (.indexOutOfRange path.raw index items.length)
  | .array items, .element key text =>
    match Json.findElement? items key text with
    | some _ => .ok ()
    | none => .error (.notFound path.raw)
  | .object _, _ => .error (.typeMismatch path.raw .array)
  | .array _, _ => .error (.typeMismatch path.raw .object)

/-- The checking walk over the steps that are left. -/
def checkFrom (path : FieldPath) : View → List Segment → Except PathError Unit
  | _, [] => .error (.parse path.raw .empty)
  | view, [last] => checkLast path view last
  | view, segment :: next :: rest =>
    match checkStep path view segment next with
    | .error error => .error error
    | .ok child =>
      match checkContainer path child next with
      | .error error => .error error
      | .ok view => checkFrom path view (next :: rest)

/-- Whether a write through the path would find its place.  Nothing is made. -/
def checkWritable (record : Object) (path : FieldPath) : Except PathError Unit :=
  checkFrom path (.object (some record)) path.segments

/-- An edit of a place: an answer, and the container it leaves. -/
abbrev Edit (α : Type) := Place → α × Json

/-- The edit of the place that the last step names in a container. -/
def editLast (path : FieldPath) (edit : Edit α) (here : Json) (last : Segment) :
    Except PathError α × Json :=
  match here, last with
  | .obj members, .name key =>
    let done := edit (.member members key)
    (.ok done.1, done.2)
  | .arr items, .index index =>
    if index < items.length then
      let done := edit (.element items index)
      (.ok done.1, done.2)
    else (.error (.indexOutOfRange path.raw index items.length), here)
  | .arr items, .element key text =>
    match Json.findElement? items key text with
    | some index =>
      let done := edit (.element items index)
      (.ok done.1, done.2)
    | none => (.error (.notFound path.raw), here)
  | .arr _, .name _ => (.error (.typeMismatch path.raw .object), here)
  | _, _ => (.error (.typeMismatch path.raw .array), here)

/-- The child as the container that the next step needs; an object is made of `null`. -/
def openContainer (path : FieldPath) (child : Json) (next : Segment) : Except PathError Json :=
  if next.isSelector then
    match child with
    | .arr items => .ok (.arr items)
    | _ => .error (.typeMismatch path.raw .array)
  else
    match child with
    | .null => .ok (.obj [])
    | .obj members => .ok (.obj members)
    | _ => .error (.typeMismatch path.raw .object)

/-- The writing walk from a container over the steps that are left.  What was made on the
way stays in the container it answers, also when a later step fails. -/
def descendTo (path : FieldPath) (edit : Edit α) : Json → List Segment → Except PathError α × Json
  | here, [] => (.error (.parse path.raw .empty), here)
  | here, [last] => editLast path edit here last
  | here, segment :: next :: rest =>
    match here, segment with
    | .obj members, .name key =>
      let child := Object.get? members key
      if next.isSelector && (child.map Json.isNull).getD true then
        (.error (.notFound path.raw), here)
      else
        match openContainer path (child.getD .null) next with
        | .error error => (.error error, here)
        | .ok inner =>
          let done := descendTo path edit inner (next :: rest)
          (done.1, .obj (Object.insert members key done.2))
    | .arr items, .index index =>
      match items[index]? with
      | none => (.error (.indexOutOfRange path.raw index items.length), here)
      | some child =>
        match openContainer path child next with
        | .error error => (.error error, here)
        | .ok inner =>
          let done := descendTo path edit inner (next :: rest)
          (done.1, .arr (items.set index done.2))
    | .arr items, .element key text =>
      match Json.findElement? items key text with
      | none => (.error (.notFound path.raw), here)
      | some index =>
        match openContainer path (items[index]?.getD .null) next with
        | .error error => (.error error, here)
        | .ok inner =>
          let done := descendTo path edit inner (next :: rest)
          (done.1, .arr (items.set index done.2))
    | .arr _, .name _ => (.error (.typeMismatch path.raw .object), here)
    | _, _ => (.error (.typeMismatch path.raw .array), here)

namespace Object

/-- The members of a value that is known to be an object. -/
def ofJson : Json → Object
  | .obj members => members
  | _ => []

/-- Checks a path, then edits the place it ends at. -/
def edit (record : Object) (path : FieldPath) (change : Edit α) : Except PathError α × Object :=
  match checkWritable record path with
  | .error error => (.error error, record)
  | .ok () =>
    let done := descendTo path change (.obj record) path.segments
    (done.1, ofJson done.2)

/-- The place a path ends at, with the objects made on the way kept. -/
def locate (record : Object) (path : FieldPath) : Except PathError Place × Object :=
  record.edit path fun place => (place, place.container)

/-- Writes a value at the place a path ends at. -/
def set (record : Object) (path : FieldPath) (value : Json) : Except PathError Unit × Object :=
  record.edit path fun place => ((), place.assign value)

/-- Takes out what the place a path ends at holds, with the objects made on the way kept. -/
def take (record : Object) (path : FieldPath) : Except PathError (Option Json) × Object :=
  record.edit path fun place => (place.current, place.remove)

/-- Takes out the value a path addresses; a value that is absent leaves the record as it is. -/
def remove (record : Object) (path : FieldPath) : Except PathError (Option Json) × Object :=
  match record.lookup? path with
  | none => (.ok none, record)
  | some _ => record.take path

end Object

end RecordStore
