/-
Module: RecordStore.Json.Basic
Purpose: JSON values with ordered object members, and the operations on members.
  Writing a member keeps its place or appends it; removing one moves the last
  member into the freed place.
Main exports: Number, Json, Object, Object.get?, Object.insert, Object.erase, Json.same
-/
import RecordStore.Number.Bounds
import RecordStore.Number.Decimal

namespace RecordStore

/-- A JSON number: an integer of at most 64 bits, signed or unsigned, or a finite double. -/
inductive Number where
  | int (value : Int)
  | float (value : Binary64)
deriving DecidableEq, Repr, Inhabited

namespace Number

/-- The double nearest to a number. -/
def toBinary64 : Number → Binary64
  | .int value => Binary64.ofInt value
  | .float value => value

/-- Equality of written form: integers equal integers and doubles equal doubles. -/
def same : Number → Number → Bool
  | .int a, .int b => a == b
  | .float a, .float b => a.sameValue b
  | _, _ => false

/-- The signed 64-bit integer a number was written as. -/
def int64? : Number → Option Int
  | .int value => if value ≤ maxInt64 then some value else none
  | .float _ => none

/-- The unsigned integer a number was written as. -/
def nat? : Number → Option Nat
  | .int value => if 0 ≤ value then some value.toNat else none
  | .float _ => none

/-- A double as a number; only finite doubles are. -/
def ofBinary64? (x : Binary64) : Option Number :=
  if x.isFinite then some (.float x) else none

end Number

/-- A JSON value.  The members of an object stand in their order; a key occurs once. -/
inductive Json where
  | null
  | bool (value : Bool)
  | num (value : Number)
  | str (value : String)
  | arr (items : List Json)
  | obj (members : List (String × Json))
deriving Repr, Inhabited

/-- The ordered members of an object. -/
abbrev Object := List (String × Json)

namespace Object

/-- The value under a key. -/
def get? : Object → String → Option Json
  | [], _ => none
  | member :: rest, key => if member.1 = key then some member.2 else get? rest key

/-- Whether a key is present. -/
def contains (o : Object) (key : String) : Bool := (o.get? key).isSome

/-- The keys in order. -/
def keys (o : Object) : List String := o.map Prod.fst

/-- The value under a key replaced in its place, or a new last member. -/
def insert : Object → String → Json → Object
  | [], key, value => [(key, value)]
  | member :: rest, key, value =>
    if member.1 = key then (key, value) :: rest else member :: insert rest key value

/-- The members without a key; the last member moves into the freed place. -/
def erase : Object → String → Object
  | [], _ => []
  | member :: rest, key =>
    if member.1 = key then
      match rest.getLast? with
      | none => []
      | some last => last :: rest.dropLast
    else member :: erase rest key

/-- All members of `more` written over `o`, in their order. -/
def overlay (o more : Object) : Object :=
  more.foldl (fun result member => result.insert member.1 member.2) o

end Object

namespace Json

/-- An integer as a JSON value. -/
def int (value : Int) : Json := .num (.int value)

/-- The absence of a value is written `null`. -/
def isNull : Json → Bool
  | .null => true
  | _ => false

def isArr : Json → Bool
  | .arr _ => true
  | _ => false

def str? : Json → Option String
  | .str value => some value
  | _ => none

def bool? : Json → Option Bool
  | .bool value => some value
  | _ => none

def arr? : Json → Option (List Json)
  | .arr items => some items
  | _ => none

def obj? : Json → Option Object
  | .obj members => some members
  | _ => none

/-- An optional value, with `null` for none. -/
def ofOption : Option Json → Json
  | some value => value
  | none => .null

mutual

/-- Equality that ignores the order of members.  Numbers are equal when they were
written in the same kind and have the same value. -/
def same : Json → Json → Bool
  | .null, .null => true
  | .bool a, .bool b => a == b
  | .num a, .num b => a.same b
  | .str a, .str b => a == b
  | .arr a, .arr b => sameItems a b
  | .obj a, .obj b => a.length == b.length && sameMembers a b
  | _, _ => false

/-- Equality element by element. -/
def sameItems : List Json → List Json → Bool
  | [], [] => true
  | a :: as, b :: bs => same a b && sameItems as bs
  | _, _ => false

/-- Every member of the first object has an equal value in the second. -/
def sameMembers : List (String × Json) → Object → Bool
  | [], _ => true
  | (key, value) :: rest, other =>
    (match other.get? key with
      | some found => same value found
      | none => false) && sameMembers rest other

end

end Json

end RecordStore
