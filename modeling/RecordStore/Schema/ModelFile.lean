/-
Module: RecordStore.Schema.ModelFile
Purpose: Files that define models.  A structure may be written as an object, whose unknown
  keys are passed over and whose known keys may be given once, or as the array of its
  fields in order.
Main exports: ModelFile.parse?
-/
import RecordStore.Schema.Registry
import RecordStore.Json.Reader

namespace RecordStore.ModelFile

/-- The value of a known key; none when it is given twice. -/
def member? (members : List (String × Json)) (key : String) : Option (Option Json) :=
  match members.filter fun member => member.1 == key with
  | [] => some none
  | [member] => some (some member.2)
  | _ => none

/-- The fields of a structure in order, absent ones as none.  An array gives the first of
them and may not be longer. -/
def structure? (keys : List String) : Json → Option (List (Option Json))
  | .obj members => keys.mapM (member? members)
  | .arr items =>
    if items.length ≤ keys.length then
      some (items.map some ++ List.replicate (keys.length - items.length) none)
    else none
  | _ => none

/-- One model of a file. -/
def definition? (raw : Json) : Option Definition :=
  match structure? ["name", "fields", "timestamps"] raw with
  | some [some (.str name), some fields, timestamps] =>
    match timestamps with
    | none => some ⟨name, fields.settle, false, Hooks.none⟩
    | some (.bool stamped) => some ⟨name, fields.settle, stamped, Hooks.none⟩
    | some _ => none
  | _ => none

/-- The definitions of a file: `models` lists a `name`, the `fields` and whether the
records carry `timestamps`. -/
def parse? (text : String) : Option (List Definition) :=
  match (Json.readRaw? Json.standard text).bind (structure? ["models"]) with
  | some [some (.arr models)] => models.mapM definition?
  | _ => none

end RecordStore.ModelFile
