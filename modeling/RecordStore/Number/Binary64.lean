/-
Module: RecordStore.Number.Binary64
Purpose: Double-precision numbers as sign and magnitude word, with the exact
  arithmetic the library needs: rounding a ratio to nearest (ties to even),
  order, sum, product and quotient.  The magnitude words are in the order of
  the numbers they stand for, so comparing two finite numbers compares integers.
Main exports: Binary64, Binary64.nearest, Binary64.compare?, Binary64.add
-/

namespace RecordStore

/-- A double: its sign bit and its other 63 bits read as a number.  Words below
`infinityWord` are finite, that word is infinity, words above it are no number. -/
structure Binary64 where
  negative : Bool
  word : Nat
deriving DecidableEq, Repr, Inhabited

namespace Binary64

/-- The number of words in a binade, `2 ^ 52`. -/
def wordsInBinade : Nat := 4503599627370496

/-- The word of infinity. -/
def infinityWord : Nat := 2047 * wordsInBinade

/-- The number of smallest steps `2 ^ -1074` in one. -/
def stepsInOne : Nat := Nat.pow 2 1074

/-- A magnitude in smallest steps, read off its exponent and fraction fields. -/
def stepsOf (word : Nat) : Nat :=
  let exponent := word / wordsInBinade
  let fraction := word % wordsInBinade
  if exponent = 0 then fraction else (wordsInBinade + fraction) * Nat.pow 2 (exponent - 1)

/-- A quotient rounded to the nearest integer, a half to the even neighbour. -/
def divHalfEven (num den : Nat) : Nat :=
  let quotient := num / den
  let rest := num % den
  if 2 * rest < den then quotient
  else if den < 2 * rest then quotient + 1
  else quotient + quotient % 2

/-- The word nearest to `num / den` smallest steps, infinity when it is too large.
A magnitude with `k` bits beyond the 53 kept lies in the binade of word `k * 2 ^ 52`. -/
def nearestWord (num den : Nat) : Nat :=
  let surplus := Nat.log2 (num / den) - 52
  min (surplus * wordsInBinade + divHalfEven num (den * Nat.pow 2 surplus)) infinityWord

/-- The double nearest to the ratio `num / den` with the given sign. -/
def nearest (negative : Bool) (num den : Nat) : Binary64 :=
  ⟨negative, nearestWord (num * stepsInOne) den⟩

/-- Zero with a sign. -/
def zero (negative : Bool) : Binary64 := ⟨negative, 0⟩

/-- Infinity with a sign. -/
def infinity (negative : Bool) : Binary64 := ⟨negative, infinityWord⟩

/-- The value that is no number. -/
def nan : Binary64 := ⟨false, infinityWord + wordsInBinade / 2⟩

/-- The double nearest to an integer. -/
def ofInt (i : Int) : Binary64 := nearest (decide (i < 0)) i.natAbs 1

/-- A number that is neither infinite nor undefined. -/
def isFinite (x : Binary64) : Bool := decide (x.word < infinityWord)

/-- The value that is no number. -/
def isNaN (x : Binary64) : Bool := decide (infinityWord < x.word)

/-- The magnitude in smallest steps. -/
def steps (x : Binary64) : Nat := stepsOf x.word

/-- The signed value of a finite number in smallest steps. -/
def signedSteps (x : Binary64) : Int :=
  if x.negative then -(x.steps : Int) else (x.steps : Int)

/-- An integer in the order of the numbers themselves; both zeros share one. -/
def rank (x : Binary64) : Int :=
  if x.negative then -(x.word : Int) else (x.word : Int)

/-- Order by value; nothing is comparable with the value that is no number. -/
def compare? (x y : Binary64) : Option Ordering :=
  if x.isNaN || y.isNaN then none else some (compare x.rank y.rank)

/-- Equality by value: both zeros are equal. -/
def sameValue (x y : Binary64) : Bool := x.compare? y == some .eq

/-- Whether the value is zero of either sign. -/
def isZero (x : Binary64) : Bool := x.word == 0

/-- The opposite number. -/
def negate (x : Binary64) : Binary64 := ⟨!x.negative, x.word⟩

/-- The double nearest to a signed number of smallest steps that is not zero. -/
def ofSignedSteps (s : Int) : Binary64 := ⟨decide (s < 0), nearestWord s.natAbs 1⟩

/-- The rounded sum. -/
def add (x y : Binary64) : Binary64 :=
  if x.isNaN || y.isNaN then nan
  else if x.isFinite then
    if y.isFinite then
      let sum := x.signedSteps + y.signedSteps
      if sum = 0 then zero (x.negative && y.negative) else ofSignedSteps sum
    else y
  else if y.isFinite then x
  else if x.negative == y.negative then x else nan

/-- The rounded product of two finite numbers. -/
def mulFinite (x y : Binary64) : Binary64 :=
  ⟨x.negative != y.negative, nearestWord (x.steps * y.steps) stepsInOne⟩

/-- The rounded quotient of two finite numbers, the second not zero. -/
def divFinite (x y : Binary64) : Binary64 :=
  ⟨x.negative != y.negative, nearestWord (x.steps * stepsInOne) y.steps⟩

/-- The value of a finite number without a fractional part. -/
def toInt? (x : Binary64) : Option Int :=
  if x.isFinite && x.steps % stepsInOne == 0 then
    let whole : Int := (x.steps / stepsInOne : Nat)
    some (if x.negative then -whole else whole)
  else none

/-- Order of an integer and a finite or infinite number by exact value. -/
def compareInt? (i : Int) (x : Binary64) : Option Ordering :=
  if x.isNaN then none
  else if x.isFinite then some (compare (i * (stepsInOne : Int)) x.signedSteps)
  else some (if x.negative then .gt else .lt)

end Binary64

end RecordStore
