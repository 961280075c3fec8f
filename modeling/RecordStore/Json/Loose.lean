/-
Module: RecordStore.Json.Loose
Purpose: The loose text of a value, which forgets the kind it was written in:
  `15`, `15.0` and `"15"` all read as `15`.
Main exports: Json.looseText, Json.looselyEqual
-/
import RecordStore.Json.Printer

namespace RecordStore

namespace Number

/-- A number as loose text: doubles without fraction below `10 ^ 15` lose their point. -/
def looseText (n : Number) : String :=
  match n with
  | .int _ => n.text
  | .float x =>
    match x.toInt? with
    | some whole => if whole.natAbs < 1000000000000000 then integerText whole else n.text
    | none => n.text

end Number

namespace Json

/-- The text of a value with its kind forgotten. -/
def looseText : Json → String
  | .str s => s
  | .num n => n.looseText
  | .null => "null"
  | .bool b => Json.text (.bool b)
  | .arr items => Json.text (.arr items)
  | .obj members => Json.text (.obj members)

/-- A value whose loose text is the given one. -/
def reads (v : Json) (text : String) : Bool := v.looseText == text

/-- Two values that are equal or have one loose text. -/
def looselyEqual (a b : Json) : Bool := a.same b || a.looseText == b.looseText

end Json

end RecordStore
