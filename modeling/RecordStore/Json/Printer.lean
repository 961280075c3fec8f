/-
Module: RecordStore.Json.Printer
Purpose: The text of a JSON value, compact or indented.  Characters other than
  controls, quote and backslash stand for themselves; doubles are the shortest
  decimal, positional from 1e-5 up to 1e16.
Main exports: Number.text, Json.text, Json.indented
-/
import RecordStore.Json.Basic

namespace RecordStore

/-- A run of zeros. -/
def zeros (count : Nat) : List Char := List.replicate count '0'

/-- How a decimal is laid out: positional while the exponent of its first digit lies
from `lowest` to below `highest`, otherwise scientific with the exponent's sign
written and at least `exponentDigits` digits. -/
structure DecimalLayout where
  lowest : Int
  highest : Int
  exponentDigits : Nat
  pointAlways : Bool

namespace DecimalLayout

/-- The exponent of scientific notation. -/
def exponentChars (layout : DecimalLayout) (exponent : Int) : List Char :=
  let digits := digitsOf exponent.natAbs
  'e' :: (if exponent < 0 then '-' else '+') ::
    (zeros (layout.exponentDigits - digits.length) ++ digits)

/-- A decimal without trailing zeros in its layout. -/
def chars (layout : DecimalLayout) (d : Decimal) : List Char :=
  let digits := digitsOf d.digits
  let leading := d.exponent + digits.length - 1
  if layout.lowest ≤ leading && leading < layout.highest then
    if 0 ≤ d.exponent then digits ++ zeros d.exponent.toNat ++ ['.', '0']
    else
      let places := (-d.exponent).toNat
      if places < digits.length then
        digits.take (digits.length - places) ++ '.' :: digits.drop (digits.length - places)
      else '0' :: '.' :: (zeros (places - digits.length) ++ digits)
  else
    let tail := digits.drop 1
    digits.take 1 ++
      (if tail.isEmpty then (if layout.pointAlways then ['.', '0'] else []) else '.' :: tail) ++
      layout.exponentChars leading

end DecimalLayout

/-- Doubles in JSON are positional from `1e-5` to below `1e16`. -/
def jsonLayout : DecimalLayout := ⟨-5, 16, 1, false⟩

namespace Binary64

/-- A finite double as a JSON number, always with a point or an exponent. -/
def jsonChars (x : Binary64) : List Char :=
  (if x.negative then ['-'] else []) ++
    (if x.word = 0 then ['0', '.', '0'] else jsonLayout.chars (Decimal.shortest x.word))

end Binary64

namespace Number

/-- A number as JSON text. -/
def chars : Number → List Char
  | .int value => integerChars value
  | .float value => value.jsonChars

/-- A number as JSON text. -/
def text (n : Number) : String := String.ofList n.chars

end Number

namespace Json

/-- A hexadecimal digit. -/
def hexDigit (n : Nat) : Char :=
  if n < 10 then Char.ofNat (48 + n) else Char.ofNat (87 + n)

/-- A character inside a quoted text. -/
def escaped (c : Char) : List Char :=
  if c = '\x22' then ['\\', '\x22']
  else if c = '\\' then ['\\', '\\']
  else if c = '\x08' then ['\\', 'b']
  else if c = '\x0c' then ['\\', 'f']
  else if c = '\n' then ['\\', 'n']
  else if c = '\r' then ['\\', 'r']
  else if c = '\t' then ['\\', 't']
  else if c.toNat < 32 then
    ['\\', 'u', '0', '0', hexDigit (c.toNat / 16), hexDigit (c.toNat % 16)]
  else [c]

/-- A quoted text. -/
def quoted (s : String) : List Char :=
  '\x22' :: (s.toList.flatMap escaped ++ ['\x22'])

mutual

/-- The compact text of a value. -/
def chars : Json → List Char
  | .null => ['n', 'u', 'l', 'l']
  | .bool true => ['t', 'r', 'u', 'e']
  | .bool false => ['f', 'a', 'l', 's', 'e']
  | .num n => n.chars
  | .str s => quoted s
  | .arr items => '[' :: (itemChars items ++ [']'])
  | .obj members => '\x7b' :: (memberChars members ++ ['\x7d'])

/-- The elements of an array, separated by commas. -/
def itemChars : List Json → List Char
  | [] => []
  | [item] => chars item
  | item :: rest => chars item ++ ',' :: itemChars rest

/-- The members of an object, separated by commas. -/
def memberChars : List (String × Json) → List Char
  | [] => []
  | [(key, value)] => quoted key ++ ':' :: chars value
  | (key, value) :: rest => quoted key ++ ':' :: (chars value ++ ',' :: memberChars rest)

end

/-- The compact text of a value. -/
def text (v : Json) : String := String.ofList v.chars

/-- A new line at a nesting level, two blanks for each. -/
def newLine (level : Nat) : List Char := '\n' :: List.replicate (2 * level) ' '

mutual

/-- The indented text of a value whose line stands at a nesting level. -/
def indentedChars (level : Nat) : Json → List Char
  | .arr (item :: rest) =>
    '[' :: (indentedItems (level + 1) (item :: rest) ++ newLine level ++ [']'])
  | .obj (member :: rest) =>
    '\x7b' :: (indentedMembers (level + 1) (member :: rest) ++ newLine level ++ ['\x7d'])
  | .arr [] => ['[', ']']
  | .obj [] => ['\x7b', '\x7d']
  | .null => chars .null
  | .bool b => chars (.bool b)
  | .num n => n.chars
  | .str s => quoted s

/-- The elements of an array, each on a line of its own. -/
def indentedItems (level : Nat) : List Json → List Char
  | [] => []
  | [item] => newLine level ++ indentedChars level item
  | item :: rest => newLine level ++ indentedChars level item ++ ',' :: indentedItems level rest

/-- The members of an object, each on a line of its own. -/
def indentedMembers (level : Nat) : List (String × Json) → List Char
  | [] => []
  | [(key, value)] => newLine level ++ quoted key ++ ':' :: ' ' :: indentedChars level value
  | (key, value) :: rest =>
    newLine level ++ quoted key ++ ':' :: ' ' :: indentedChars level value ++
      ',' :: indentedMembers level rest

end

/-- The indented text of a value. -/
def indented (v : Json) : String := String.ofList (indentedChars 0 v)

end Json

end RecordStore
