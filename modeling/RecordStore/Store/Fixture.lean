/-
Module: RecordStore.Store.Fixture
Purpose: Fixture files, whose `data` lists the records to insert.
Main exports: Fixture.parse
-/
import RecordStore.Store.Error
import RecordStore.Json.Reader

namespace RecordStore.Fixture

/-- The key of the list of records. -/
def dataKey : String := "data"

/-- The records of a list, numbered from a position. -/
def records (position : Nat) : List Json → Except FixtureFault (List Object)
  | [] => .ok []
  | .obj members :: rest => (records (position + 1) rest).map (members :: ·)
  | _ :: _ => .error (.notAnObject position)

/-- The records of a fixture file. -/
def parse (text : String) : Except FixtureFault (List Object) :=
  match Json.parse? text with
  | none => .error .notJson
  | some (.obj members) =>
    match Object.get? members dataKey with
    | some (.arr items) => records 0 items
    | _ => .error .missingData
  | some _ => .error .missingData

end RecordStore.Fixture
