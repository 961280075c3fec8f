/-
Module: RecordStore.Number.Numeral
Purpose: Reading numbers from texts: signed and unsigned 64-bit integers, and
  doubles in decimal notation with an optional exponent, or named infinities.
Main exports: Numeral.int64?, Numeral.nat64?, Numeral.binary64?
-/
import RecordStore.Number.Bounds
import RecordStore.Number.Decimal
import RecordStore.Text.Blank

namespace RecordStore

namespace Numeral

/-- The value of an ASCII digit. -/
def digitValue (c : Char) : Nat := c.toNat - 48

/-- The number written by a run of decimal digits. -/
def natOf (digits : List Char) : Nat :=
  digits.foldl (fun n c => n * 10 + digitValue c) 0

/-- A non-empty run of decimal digits as a number. -/
def nat? (cs : List Char) : Option Nat :=
  if !cs.isEmpty && cs.all Char.isDigit then some (natOf cs) else none

/-- A sign in front of the rest: `-` gives true. -/
def sign (cs : List Char) : Bool × List Char :=
  match cs with
  | '-' :: rest => (true, rest)
  | '+' :: rest => (false, rest)
  | rest => (false, rest)

/-- A signed integer of 64 bits, with an optional sign and digits only. -/
def int64? (s : String) : Option Int :=
  let signed := sign s.toList
  (nat? signed.2).bind fun n =>
    let value : Int := if signed.1 then -(n : Int) else n
    if fitsInt64 value then some value else none

/-- An unsigned integer of at most `limit`, with an optional plus sign. -/
def natUpTo? (limit : Nat) (s : String) : Option Nat :=
  let digits := match s.toList with
    | '+' :: rest => rest
    | cs => cs
  (nat? digits).bind fun n => if n ≤ limit then some n else none

/-- An unsigned integer of 64 bits. -/
def nat64? (s : String) : Option Nat := natUpTo? maxNat64 s

/-- The exponent part of a decimal: nothing, or `e` with a sign and digits. -/
def exponent? (cs : List Char) : Option Int :=
  match cs with
  | [] => some 0
  | e :: rest =>
    if e = 'e' || e = 'E' then
      let signed := sign rest
      (nat? signed.2).map fun n => if signed.1 then -(n : Int) else n
    else none

/-- The digits after a point, if one stands here, and what follows them. -/
def fraction (cs : List Char) : List Char × List Char :=
  match cs with
  | '.' :: rest => rest.span Char.isDigit
  | rest => ([], rest)

/-- An unsigned decimal: digits with an optional point among or around them. -/
def decimal? (cs : List Char) : Option Decimal :=
  let whole := cs.span Char.isDigit
  let part := fraction whole.2
  let digits := whole.1 ++ part.1
  if digits.isEmpty then none
  else (exponent? part.2).map fun e => ⟨natOf digits, e - part.1.length⟩

/-- A double: an optional sign, then a decimal or one of the words `inf`,
`infinity` and `nan` in any case.  Too large a decimal is infinite. -/
def binary64? (s : String) : Option Binary64 :=
  let signed := sign s.toList
  let word := Text.lower (String.ofList signed.2)
  if word = "inf" || word = "infinity" then some (Binary64.infinity signed.1)
  else if word = "nan" then some Binary64.nan
  else (decimal? signed.2).map (Decimal.nearest signed.1)

end Numeral

end RecordStore
