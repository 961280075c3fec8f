/-
Module: RecordStore.Number.Decimal
Purpose: Decimals `digits * 10 ^ exponent` and doubles.  `Decimal.nearest` rounds a
  decimal to a double; `Decimal.shortest` is the decimal with the fewest digits
  that rounds back, of those the nearest, a tie going to the even last digit.
Main exports: Decimal, Decimal.nearest, Decimal.shortest, Decimal.significant
-/
import RecordStore.Number.Binary64

namespace RecordStore

/-- A non-negative decimal `digits * 10 ^ exponent`. -/
structure Decimal where
  digits : Nat
  exponent : Int
deriving DecidableEq, Repr, Inhabited

/-- The decimal digits of a number, most significant first; zero has one. -/
def digitsOf (n : Nat) : List Char := Nat.toDigits 10 n

/-- A signed integer in decimal digits. -/
def integerChars (i : Int) : List Char :=
  if i < 0 then '-' :: digitsOf i.natAbs else digitsOf i.natAbs

/-- A signed integer in decimal digits. -/
def integerText (i : Int) : String := String.ofList (integerChars i)

namespace Decimal

/-- The double nearest to a decimal.  Beyond the exponents `310` and `-330` of the
first digit the result is infinity or zero whatever the digits are. -/
def nearest (negative : Bool) (d : Decimal) : Binary64 :=
  if d.digits = 0 then Binary64.zero negative
  else
    let leading := d.exponent + (digitsOf d.digits).length
    if 310 < leading then Binary64.infinity negative
    else if leading < -330 then Binary64.zero negative
    else Binary64.nearest negative (d.digits * Nat.pow 10 d.exponent.toNat)
      (Nat.pow 10 (-d.exponent).toNat)

/-- Whether `digits * 10 ^ exponent` rounds to the finite word: it lies between
the midpoints to the two neighbours, which count when the word is even. -/
def roundsTo (word : Nat) (digits : Nat) (exponent : Int) : Bool :=
  let scaleUp := Nat.pow 10 exponent.toNat
  let scaleDown := Nat.pow 10 (-exponent).toNat
  let twice := 2 * digits * scaleUp * Binary64.stepsInOne
  let low := (Binary64.stepsOf (word - 1) + Binary64.stepsOf word) * scaleDown
  let high := (Binary64.stepsOf word + Binary64.stepsOf (word + 1)) * scaleDown
  if word % 2 = 0 then low ≤ twice && twice ≤ high else low < twice && twice < high

/-- The digits just below a magnitude on the grid of `10 ^ exponent`, and whether the
magnitude lies in the lower half, the upper half or the middle of that cell. -/
def floorOn (word : Nat) (exponent : Int) : Nat × Ordering :=
  let num := Binary64.stepsOf word * Nat.pow 10 (-exponent).toNat
  let den := Binary64.stepsInOne * Nat.pow 10 exponent.toNat
  (num / den, compare (2 * (num % den)) den)

/-- The decimal on one grid that rounds to the word, if there is one. -/
def onGrid? (word : Nat) (exponent : Int) : Option Decimal :=
  let cell := floorOn word exponent
  let below := cell.1
  let above := below + 1
  match roundsTo word below exponent, roundsTo word above exponent with
  | true, true =>
    match cell.2 with
    | .lt => some ⟨below, exponent⟩
    | .gt => some ⟨above, exponent⟩
    | .eq => some ⟨if below % 2 = 0 then below else above, exponent⟩
  | true, false => some ⟨below, exponent⟩
  | false, true => some ⟨above, exponent⟩
  | false, false => none

/-- The first grid with a hit, from coarse to fine. -/
def searchFrom (word : Nat) : Nat → Int → Decimal
  | 0, exponent => ⟨(floorOn word exponent).1, exponent⟩
  | grids + 1, exponent => (onGrid? word exponent).getD (searchFrom word grids (exponent - 1))

/-- An exponent at or above the one of the leading digit of a positive magnitude. -/
def leadingBound (word : Nat) : Int :=
  let steps := Binary64.stepsOf word
  if Binary64.stepsInOne ≤ steps then (digitsOf (steps / Binary64.stepsInOne)).length
  else 1 - ((digitsOf (Binary64.stepsInOne / steps)).length : Int)

/-- The shortest decimal that rounds to a positive finite magnitude. -/
def shortest (word : Nat) : Decimal :=
  searchFrom word 20 (leadingBound word)

/-- A positive magnitude cut to `count` significant digits, a half rounded up. -/
def significant (count : Nat) (word : Nat) : Decimal :=
  let exponent := leadingBound word - count
  let cell := floorOn word exponent
  let rounded := if cell.2 = .lt then cell.1 else cell.1 + 1
  if rounded = Nat.pow 10 count then ⟨Nat.pow 10 (count - 1), exponent + 1⟩ else ⟨rounded, exponent⟩

end Decimal

end RecordStore
