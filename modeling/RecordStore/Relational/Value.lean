/-
Module: RecordStore.Relational.Value
Purpose: The values of table cells and statement parameters, their order, and the
  affinities by which a column turns texts and numbers into one another.
Main exports: SqlValue, SqlValue.compare?, Affinity, Affinity.convert
-/
import RecordStore.Json.Loose
import RecordStore.Number.Numeral

namespace RecordStore

/-- A value of a cell or a parameter. -/
inductive SqlValue where
  | null
  | int (value : Int)
  | real (value : Binary64)
  | text (value : String)
deriving DecidableEq, Repr, Inhabited

namespace SqlValue

/-- A number: a signed 64-bit integer if it was written as one, otherwise a real. -/
def ofNumber (n : Number) : SqlValue :=
  match n.int64? with
  | some value => .int value
  | none => .real n.toBinary64

/-- A truth value as a number. -/
def ofBool (b : Bool) : SqlValue := .int (if b then 1 else 0)

/-- The number a text spells, with blanks around it: an integer, or a finite real. -/
def ofNumericText? (text : String) : Option SqlValue :=
  let trimmed := Text.trim text
  match Numeral.int64? trimmed with
  | some value => some (.int value)
  | none =>
    match Numeral.binary64? trimmed with
    | some x => if x.isFinite then some (.real x) else none
    | none => none

/-- How reals are written as text: fifteen digits, positional from `1e-4` to below `1e15`. -/
def realLayout : DecimalLayout := ⟨-4, 15, 2, true⟩

/-- A decimal without zeros at its end; `fuel` bounds their number. -/
def stripZeros : Nat → Decimal → Decimal
  | 0, d => d
  | fuel + 1, d =>
    if d.digits ≠ 0 && d.digits % 10 == 0 then stripZeros fuel ⟨d.digits / 10, d.exponent + 1⟩
    else d

/-- A real as text. -/
def realText (x : Binary64) : String :=
  let sign := if x.negative then ['-'] else []
  if x.isZero then "0.0"
  else if x.isFinite then
    String.ofList (sign ++ realLayout.chars (stripZeros 15 (Decimal.significant 15 x.word)))
  else String.ofList (sign ++ ['I', 'n', 'f'])

/-- The text of a value; `null` has none. -/
def text? : SqlValue → Option String
  | .null => none
  | .int value => some (integerText value)
  | .real x => some (realText x)
  | .text value => some value

/-- A real without a fraction as an integer, if it lies strictly inside 64 bits. -/
def integral? (x : Binary64) : Option Int :=
  match x.toInt? with
  | some value => if minInt64 < value && value < maxInt64 then some value else none
  | none => none

/-- White space around the number of a text. -/
def isNumeralSpace (c : Char) : Bool := c == ' ' || (9 ≤ c.toNat && c.toNat ≤ 13)

/-- The number a stored text looks like: an integer of 64 bits, or a decimal. -/
def numeralOf? (text : String) : Option SqlValue :=
  let trimmed := ((text.toList.dropWhile isNumeralSpace).reverse.dropWhile isNumeralSpace).reverse
  match Numeral.int64? (String.ofList trimmed) with
  | some value => some (.int value)
  | none =>
    let signed := Numeral.sign trimmed
    (Numeral.decimal? signed.2).map fun d => .real (Decimal.nearest signed.1 d)

/-- Order of two values; nothing compares with `null`.  Numbers are below texts, numbers
compare by exact value, texts by code point. -/
def compare? : SqlValue → SqlValue → Option Ordering
  | .null, _ => none
  | _, .null => none
  | .text a, .text b => some (Text.compare a b)
  | .text _, _ => some .gt
  | _, .text _ => some .lt
  | .int a, .int b => some (Ord.compare a b)
  | .int a, .real b => Binary64.compareInt? a b
  | .real a, .int b => (Binary64.compareInt? b a).map Ordering.swap
  | .real a, .real b => a.compare? b

/-- Order in a sort: `null` is below every value. -/
def sortCompare (a b : SqlValue) : Ordering :=
  match a, b with
  | .null, .null => .eq
  | .null, _ => .lt
  | _, .null => .gt
  | _, _ => (compare? a b).getD .eq

end SqlValue

/-- The kind of value a column prefers. -/
inductive Affinity where
  | text
  | numeric
  | none
deriving DecidableEq, Repr, Inhabited

/-- A text that looks like a number as that number. -/
def SqlValue.readNumeral (value : SqlValue) : SqlValue :=
  match value with
  | .text written => (SqlValue.numeralOf? written).getD value
  | _ => value

/-- A real without a fraction as an integer. -/
def SqlValue.shorten (value : SqlValue) : SqlValue :=
  match value with
  | .real x => ((SqlValue.integral? x).map SqlValue.int).getD value
  | _ => value

/-- A value as text. -/
def SqlValue.spell (value : SqlValue) : SqlValue :=
  match value.text? with
  | some written => .text written
  | none => .null

namespace Affinity

/-- A value as a column of this affinity stores it, and as it is compared with one. -/
def convert (affinity : Affinity) (value : SqlValue) : SqlValue :=
  match affinity with
  | .none => value
  | .text => value.spell
  | .numeric => value.readNumeral.shorten

end Affinity

end RecordStore
