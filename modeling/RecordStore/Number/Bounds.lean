/-
Module: RecordStore.Number.Bounds
Purpose: The bounds of the signed and unsigned 64-bit integers.
Main exports: minInt64, maxInt64, maxNat64, fitsInt64
-/

namespace RecordStore

/-- The least signed 64-bit integer. -/
def minInt64 : Int := -9223372036854775808

/-- The greatest signed 64-bit integer. -/
def maxInt64 : Int := 9223372036854775807

/-- The greatest unsigned 64-bit integer. -/
def maxNat64 : Nat := 18446744073709551615

/-- Whether an integer is a signed 64-bit integer. -/
def fitsInt64 (i : Int) : Bool := minInt64 ≤ i && i ≤ maxInt64

end RecordStore
