/-
Module: RecordStore.Patch.Update
Purpose: Applying patches to records.  What a mode does is decided by the declared type at
  the end of the path, never by the value that is stored there.  Every operation answers a
  result together with the record it leaves; pairs before a failing one stay applied.
Main exports: Patch.apply, Patch.applyAll
-/
import RecordStore.Patch.Basic
import RecordStore.Path.Write
import RecordStore.Schema.Resolution

namespace RecordStore.Patch

/-- The result of a change and the record it leaves. -/
abbrev Change (α : Type) := Except PatchError α × Object

/-- Writes a value at a path. -/
def cover (record : Object) (path : FieldPath) (value : Json) : Change Unit :=
  match record.set path value with
  | (.ok (), after) => (.ok (), after)
  | (.error error, after) => (.error (.path error), after)

/-- Takes out what a path addresses. -/
def removeAt (record : Object) (path : FieldPath) : Change Unit :=
  match record.remove path with
  | (.ok _, after) => (.ok (), after)
  | (.error error, after) => (.error (.path error), after)

/-- Nothing changes and a value is refused. -/
def refuse (record : Object) (path : FieldPath) (fault : ValueFault) : Change Unit :=
  (.error (.invalidValue path.raw fault), record)

/-- A stored value, with `null` as good as none. -/
def stored? (record : Object) (path : FieldPath) : Option Json :=
  match record.lookup? path with
  | some .null => none
  | found => found

/-- The number of a numeric text: an integer of 64 bits if it is one, or a finite double. -/
def textNumber? (text : String) : Option Number :=
  let trimmed := Text.trim text
  match Numeral.int64? trimmed with
  | some i => some (.int i)
  | none => (Numeral.binary64? trimmed).bind Number.ofBinary64?

/-- The number of a number or a numeric text. -/
def number? : Json → Option Number
  | .num n => some n
  | .str text => textNumber? text
  | _ => none

/-- The sum of two numbers: of signed 64-bit integers exactly while it fits, otherwise of
doubles while it is finite. -/
def sum? (left right : Number) : Option Number :=
  let rounded := Number.ofBinary64? (left.toBinary64.add right.toBinary64)
  match left.int64?, right.int64? with
  | some a, some b => if fitsInt64 (a + b) then some (.int (a + b)) else rounded
  | _, _ => rounded

/-- The elements an operand adds to a list: its own if it is a list, otherwise itself. -/
def addedItems : Json → List Json
  | .arr items => items
  | value => [value]

/-- The text an operand adds to a text. -/
def addedText : Json → String
  | .null => ""
  | value => value.looseText

/-- Adds an operand to a stored list. -/
def appendItems (record : Object) (path : FieldPath) (operand : Json) : Change Unit :=
  match stored? record path with
  | none => cover record path (.arr (addedItems operand))
  | some (.arr items) => cover record path (.arr (items ++ addedItems operand))
  | some _ => refuse record path .storedNotAnArray

/-- Adds an operand to the end of a stored text. -/
def appendText (record : Object) (path : FieldPath) (operand : Json) : Change Unit :=
  let before := ((stored? record path).map Json.looseText).getD ""
  cover record path (.str (before ++ addedText operand))

/-- Adds an operand to a stored number. -/
def appendNumber (record : Object) (path : FieldPath) (operand : Json) : Change Unit :=
  match number? operand with
  | none => refuse record path .operandNotANumber
  | some addend =>
    match ((stored? record path).map number?).getD (some (.int 0)) with
    | none => refuse record path .storedNotANumber
    | some current =>
      match sum? current addend with
      | none => refuse record path .sumNotFinite
      | some sum => cover record path (.num sum)

/-- Adds an operand as the declared type asks; objects are left alone. -/
def append (record : Object) (path : FieldPath) (operand : Json) (resolved : Resolved) :
    Change Unit :=
  if resolved.isArrayLike then appendItems record path operand
  else if resolved.type.isText then appendText record path operand
  else if resolved.type.isNumeric then appendNumber record path operand
  else if resolved.type == .object then (.ok (), record)
  else cover record path operand

/-- Takes the first element that is loosely equal to an operand out of a stored list. -/
def deleteItem (record : Object) (path : FieldPath) (operand : Json) : Change Unit :=
  match record.lookup? path with
  | some (.arr items) =>
    match items.findIdx? (·.looselyEqual operand) with
    | some index => cover record path (.arr (items.eraseIdx index))
    | none => (.ok (), record)
  | _ => (.ok (), record)

/-- Clears a value as the declared type asks: a selected element goes, a list loses one
element, texts become empty, numbers zero, and any other value goes. -/
def delete (record : Object) (path : FieldPath) (operand : Json) (resolved : Resolved) :
    Change Unit :=
  if path.endsWithSelector then removeAt record path
  else if resolved.isArrayLike then deleteItem record path operand
  else if resolved.type.isText then cover record path (.str "")
  else if resolved.type.isNumeric then cover record path (.int 0)
  else removeAt record path

/-- The object stored at a path, empty if there is none. -/
def storedObject (record : Object) (path : FieldPath) : Object :=
  match record.lookup? path with
  | some (.obj members) => members
  | _ => []

/-- Writes the members of an operand over a stored object; other types are left alone. -/
def merge (record : Object) (path : FieldPath) (operand : Json) (resolved : Resolved) :
    Change Unit :=
  if resolved.type != .object || resolved.isList then (.ok (), record)
  else
    match operand with
    | .obj incoming => cover record path (.obj ((storedObject record path).overlay incoming))
    | _ => refuse record path .operandNotAnObject

/-- Applies one operand at a path of a declared type. -/
def apply (record : Object) (path : FieldPath) (operand : Json) (mode : UpdateMode)
    (resolved : Resolved) : Change Unit :=
  match mode with
  | .cover => cover record path operand
  | .append => append record path operand resolved
  | .delete => delete record path operand resolved
  | .merge => merge record path operand resolved

/-- Whether no patch may change what starts at the root of a path: the key field, virtual
relations, and fields excluded from updates. -/
def isProtected (schema : Schema) (path : FieldPath) : Bool :=
  path.root == idField ||
    match schema.field? path.root with
    | some field => field.isVirtual || field.excludedFrom .update
    | none => false

/-- Applies one pair of a patch; the answer tells whether it was applied or left out. -/
def applyPair (schema : Schema) (mode : UpdateMode) (policy : UnknownFieldPolicy)
    (record : Object) (key : String) (operand : Json) : Change Bool :=
  match schema.path key with
  | .error error => (.error (.path error), record)
  | .ok path =>
    if isProtected schema path then (.ok false, record)
    else
      match schema.resolve? path with
      | none =>
        match policy with
        | .skip => (.ok false, record)
        | .reject => (.error (.unknownField schema.name key), record)
      | some resolved =>
        match apply record path operand mode resolved with
        | (.ok (), after) => (.ok true, after)
        | (.error error, after) => (.error error, after)

/-- Applies the pairs of a patch in order up to the first error. -/
def applyAll (schema : Schema) (mode : UpdateMode) (policy : UnknownFieldPolicy)
    (record : Object) : List (String × Json) → Change PatchReport
  | [] => (.ok ⟨[], []⟩, record)
  | (key, operand) :: rest =>
    match applyPair schema mode policy record key operand with
    | (.error error, after) => (.error error, after)
    | (.ok applied, after) =>
      match applyAll schema mode policy after rest with
      | (.error error, last) => (.error error, last)
      | (.ok report, last) => (.ok (PatchReport.cons key applied report), last)

end RecordStore.Patch
