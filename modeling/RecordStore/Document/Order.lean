/-
Module: RecordStore.Document.Order
Purpose: Equality and order of stored values.  Texts that are date-times compare in time,
  texts that are numbers by value, other texts by code point; numbers compare with
  numbers and numeric texts.
Main exports: Document.compare, Document.containsEqual, Document.sortCompare
-/
import RecordStore.Json.Basic
import RecordStore.Time.Instant

namespace RecordStore.Document

/-- The double of a number or a numeric text. -/
def number? : Json → Option Binary64
  | .num n => some n.toBinary64
  | .str text => Numeral.binary64? (Text.trim text)
  | _ => none

/-- Order of two values as numbers. -/
def compareNumbers (left right : Json) : Option Ordering :=
  match number? left, number? right with
  | some a, some b => a.compare? b
  | _, _ => none

/-- Order of two texts: in time, by value or by code point. -/
def compareTexts (left right : String) : Option Ordering :=
  match Instant.parse? left, Instant.parse? right with
  | some a, some b => some (a.compare b)
  | _, _ =>
    match number? (.str left), number? (.str right) with
    | some a, some b => a.compare? b
    | _, _ => some (Text.compare left right)

/-- False is below true. -/
def compareBools : Bool → Bool → Ordering
  | false, true => .lt
  | true, false => .gt
  | _, _ => .eq

/-- Order of two values of kinds that compare. -/
def compare (left right : Json) : Option Ordering :=
  match left, right with
  | .str a, .str b => compareTexts a b
  | .bool a, .bool b => some (compareBools a b)
  | .num _, _ => compareNumbers left right
  | _, .num _ => compareNumbers left right
  | _, _ => none

/-- Equality in which two numbers are compared by value. -/
def equal (left right : Json) : Bool :=
  match left, right with
  | .num a, .num b => a.toBinary64.sameValue b.toBinary64
  | _, _ => left.same right

/-- Whether a stored value equals an expected one, or is an array that holds it. -/
def containsEqual (actual expected : Json) : Bool :=
  equal actual expected ||
    match actual with
    | .arr items => !expected.isArr && items.any (equal · expected)
    | _ => false

/-- The place of a kind of value in a sort; what is missing counts as `null`. -/
def rank : Option Json → Nat
  | none => 0
  | some .null => 0
  | some (.bool _) => 1
  | some (.num _) => 2
  | some (.str _) => 3
  | some (.arr _) => 4
  | some (.obj _) => 5

/-- Order in a sort: by kind, then within a kind; what does not compare ties. -/
def sortCompare (left right : Option Json) : Ordering :=
  match left, right with
  | some a, some b =>
    if rank left = rank right then (compare a b).getD .eq
    else Ord.compare (rank left) (rank right)
  | _, _ => Ord.compare (rank left) (rank right)

end RecordStore.Document
