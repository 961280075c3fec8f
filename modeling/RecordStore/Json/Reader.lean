/-
Module: RecordStore.Json.Reader
Purpose: Strict reading of JSON text.  A reader is given the number of arrays and
  objects that may stand inside one another and the way decimals become doubles.
  A key given twice keeps its first place and its last value.
Main exports: Json.Dialect, Json.readRaw?, Json.read?, Json.parse?
-/
import RecordStore.Json.Basic
import RecordStore.Number.Numeral

namespace RecordStore.Json

/-- A JSON number as written: sign, digits before and after the point, and the
exponent with its sign (true for minus). -/
structure NumberText where
  negative : Bool
  whole : List Char
  fraction : Option (List Char)
  exponent : Option (Bool × List Char)
deriving Repr

/-- What a reader of JSON text allows and how it rounds. -/
structure Dialect where
  depth : Nat
  toBinary64 : NumberText → Option Binary64

namespace NumberText

/-- Digits taken onto a significand while it stays below `2 ^ 64`, and their number. -/
def absorb (significand : Nat) : List Char → Nat × Nat
  | [] => (significand, 0)
  | c :: rest =>
    let next := significand * 10 + Numeral.digitValue c
    if next ≤ maxNat64 then
      let more := absorb next rest
      (more.1, more.2 + 1)
    else (significand, 0)

/-- The power of ten written after `e`. -/
def exponentValue (n : NumberText) : Int :=
  match n.exponent with
  | none => 0
  | some (negative, digits) =>
    if negative then -(Numeral.natOf digits : Int) else Numeral.natOf digits

/-- The significand of at most 64 bits and the power of ten that goes with it.
Digits before the point that no longer fit raise the power, digits after the
point that no longer fit are dropped. -/
def leading (n : NumberText) : Decimal :=
  let whole := absorb 0 n.whole
  let part := absorb whole.1 (n.fraction.getD [])
  ⟨part.1, (n.whole.length - whole.2 : Int) - part.2 + n.exponentValue⟩

/-- The double nearest to a power of ten. -/
def powerOfTen (k : Nat) : Binary64 := Decimal.nearest false ⟨1, k⟩

/-- A positive double scaled by a power of ten, each step rounded: one product or
quotient up to `10 ^ 308`, below that a quotient by `10 ^ 308` first. -/
def scaled : Nat → Binary64 → Int → Option Binary64
  | 0, x, _ => some x
  | steps + 1, x, exponent =>
    if exponent.natAbs ≤ 308 then
      if 0 ≤ exponent then
        let product := x.mulFinite (powerOfTen exponent.toNat)
        if product.isFinite then some product else none
      else some (x.divFinite (powerOfTen exponent.natAbs))
    else if x.isZero then some x
    else if 0 ≤ exponent then none
    else scaled steps (x.divFinite (powerOfTen 308)) (exponent + 308)

/-- The double of a decimal by rounding its leading 64 bits and scaling them;
none when it overflows. -/
def staged? (n : NumberText) : Option Binary64 :=
  let decimal := n.leading
  (scaled 8 (Binary64.ofInt decimal.digits) decimal.exponent).map fun x =>
    if n.negative then x.negate else x

/-- The double nearest to a decimal, infinite when it is too large. -/
def nearest (n : NumberText) : Binary64 :=
  let part := n.fraction.getD []
  Decimal.nearest n.negative
    ⟨Numeral.natOf (n.whole ++ part), n.exponentValue - (part.length : Int)⟩

/-- A number as a JSON value: without point and exponent an integer when it fits
64 bits (`-0` does not count), otherwise a double. -/
def toNumber? (dialect : Dialect) (n : NumberText) : Option Number :=
  let whole := Numeral.natOf n.whole
  if n.fraction.isNone && n.exponent.isNone &&
      (if n.negative then decide (0 < whole) && fitsInt64 (-(whole : Int))
      else decide (whole ≤ maxNat64)) then
    some (.int (if n.negative then -(whole : Int) else whole))
  else (dialect.toBinary64 n).map .float

end NumberText

/-- Space, line feed, carriage return and tab. -/
def isSpace (c : Char) : Bool := c == ' ' || c == '\n' || c == '\t' || c == '\r'

/-- The text after white space. -/
def skipSpace (cs : List Char) : List Char := cs.dropWhile isSpace

/-- The value of a hexadecimal digit. -/
def hexValue? (c : Char) : Option Nat :=
  if '0' ≤ c ∧ c ≤ '9' then some (c.toNat - 48)
  else if 'a' ≤ c ∧ c ≤ 'f' then some (c.toNat - 87)
  else if 'A' ≤ c ∧ c ≤ 'F' then some (c.toNat - 55)
  else none

/-- The number of four hexadecimal digits. -/
def hexFour? (a b c d : Char) : Option Nat := do
  let a ← hexValue? a
  let b ← hexValue? b
  let c ← hexValue? c
  let d ← hexValue? d
  return ((a * 16 + b) * 16 + c) * 16 + d

/-- The character after a backslash, `u` aside. -/
def simpleEscape? (c : Char) : Option Char :=
  if c = '\x22' || c = '\\' || c = '/' then some c
  else if c = 'b' then some '\x08'
  else if c = 'f' then some '\x0c'
  else if c = 'n' then some '\n'
  else if c = 'r' then some '\r'
  else if c = 't' then some '\t'
  else none

/-- The characters up to the closing quote, and what follows it. -/
def stringTail? : List Char → Option (List Char × List Char)
  | [] => none
  | c :: rest =>
    if c = '\x22' then some ([], rest)
    else if c = '\\' then
      match rest with
      | [] => none
      | e :: more =>
        if e = 'u' then
          match more with
          | h1 :: h2 :: h3 :: h4 :: tail =>
            match hexFour? h1 h2 h3 h4 with
            | none => none
            | some n =>
              if 0xDC00 ≤ n ∧ n ≤ 0xDFFF then none
              else if 0xD800 ≤ n ∧ n ≤ 0xDBFF then
                match tail with
                | '\\' :: 'u' :: l1 :: l2 :: l3 :: l4 :: after =>
                  match hexFour? l1 l2 l3 l4 with
                  | none => none
                  | some low =>
                    if 0xDC00 ≤ low ∧ low ≤ 0xDFFF then
                      (stringTail? after).map fun read =>
                        (Char.ofNat (0x10000 + (n - 0xD800) * 0x400 + (low - 0xDC00)) :: read.1,
                          read.2)
                    else none
                | _ => none
              else (stringTail? tail).map fun read => (Char.ofNat n :: read.1, read.2)
          | _ => none
        else
          match simpleEscape? e with
          | none => none
          | some plain => (stringTail? more).map fun read => (plain :: read.1, read.2)
    else if c.toNat < 32 then none
    else (stringTail? rest).map fun read => (c :: read.1, read.2)

/-- A quoted text at the head of the input. -/
def string? : List Char → Option (String × List Char)
  | c :: rest =>
    if c = '\x22' then (stringTail? rest).map fun read => (String.ofList read.1, read.2) else none
  | [] => none

/-- The part of a number after the point, if it has one. -/
def fractionText? (cs : List Char) : Option (Option (List Char) × List Char) :=
  match cs with
  | '.' :: rest =>
    let digits := rest.span Char.isDigit
    if digits.1.isEmpty then none else some (some digits.1, digits.2)
  | _ => some (none, cs)

/-- The exponent of a number, if it has one. -/
def exponentText? (cs : List Char) : Option (Option (Bool × List Char) × List Char) :=
  match cs with
  | e :: rest =>
    if e = 'e' || e = 'E' then
      let signed := Numeral.sign rest
      let digits := signed.2.span Char.isDigit
      if digits.1.isEmpty then none else some (some (signed.1, digits.1), digits.2)
    else some (none, cs)
  | [] => some (none, cs)

/-- A number at the head of the input; a leading zero stands alone. -/
def numberText? (cs : List Char) : Option (NumberText × List Char) := do
  let (negative, cs) := match cs with
    | '-' :: rest => (true, rest)
    | _ => (false, cs)
  let (whole, cs) := cs.span Char.isDigit
  if whole.isEmpty || (whole.length != 1 && whole.head? == some '0') then none
  let (fraction, cs) ← fractionText? cs
  let (exponent, cs) ← exponentText? cs
  return (⟨negative, whole, fraction, exponent⟩, cs)

/-- The rest of the input after a fixed word. -/
def word? (word : List Char) (cs : List Char) : Option (List Char) :=
  if word.isPrefixOf cs then some (cs.drop word.length) else none

mutual

/-- A value at the head of the input, members as written, and what follows it.
`fuel` bounds the steps, `depth` the containers that may still be opened. -/
def value? (dialect : Dialect) : Nat → Nat → List Char → Option (Json × List Char)
  | 0, _, _ => none
  | fuel + 1, depth, cs =>
    match cs with
    | [] => none
    | c :: rest =>
      if c = '[' then
        match depth with
        | 0 => none
        | depth + 1 =>
          match skipSpace rest with
          | ']' :: after => some (.arr [], after)
          | inner => (items? dialect fuel depth inner).map fun read => (.arr read.1, read.2)
      else if c = '\x7b' then
        match depth with
        | 0 => none
        | depth + 1 =>
          match skipSpace rest with
          | '\x7d' :: after => some (.obj [], after)
          | inner => (members? dialect fuel depth inner).map fun read => (.obj read.1, read.2)
      else if c = '\x22' then (string? cs).map fun read => (.str read.1, read.2)
      else if c = 't' then (word? ['t', 'r', 'u', 'e'] cs).map fun after => (.bool true, after)
      else if c = 'f' then
        (word? ['f', 'a', 'l', 's', 'e'] cs).map fun after => (.bool false, after)
      else if c = 'n' then (word? ['n', 'u', 'l', 'l'] cs).map fun after => (.null, after)
      else
        match numberText? cs with
        | none => none
        | some (n, after) => (n.toNumber? dialect).map fun number => (.num number, after)

/-- The elements of an array up to its closing bracket. -/
def items? (dialect : Dialect) : Nat → Nat → List Char → Option (List Json × List Char)
  | 0, _, _ => none
  | fuel + 1, depth, cs =>
    match value? dialect fuel depth cs with
    | none => none
    | some (item, rest) =>
      match skipSpace rest with
      | ']' :: after => some ([item], after)
      | ',' :: more =>
        (items? dialect fuel depth (skipSpace more)).map fun read => (item :: read.1, read.2)
      | _ => none

/-- The members of an object up to its closing brace. -/
def members? (dialect : Dialect) :
    Nat → Nat → List Char → Option (List (String × Json) × List Char)
  | 0, _, _ => none
  | fuel + 1, depth, cs =>
    match string? cs with
    | none => none
    | some (key, rest) =>
      match skipSpace rest with
      | ':' :: more =>
        match value? dialect fuel depth (skipSpace more) with
        | none => none
        | some (value, rest) =>
          match skipSpace rest with
          | '\x7d' :: after => some ([(key, value)], after)
          | ',' :: more =>
            (members? dialect fuel depth (skipSpace more)).map fun read =>
              ((key, value) :: read.1, read.2)
          | _ => none
      | _ => none

end

/-- The value a whole text stands for, with members as written. -/
def readRaw? (dialect : Dialect) (text : String) : Option Json :=
  let cs := skipSpace text.toList
  match value? dialect (2 * cs.length + 2) dialect.depth cs with
  | none => none
  | some (value, rest) => if (skipSpace rest).isEmpty then some value else none

mutual

/-- Members with a repeated key become one, at every depth. -/
def settle : Json → Json
  | .arr items => .arr (settleItems items)
  | .obj members => .obj (settleMembers members [])
  | .null => .null
  | .bool b => .bool b
  | .num n => .num n
  | .str s => .str s

/-- Every element settled. -/
def settleItems : List Json → List Json
  | [] => []
  | item :: rest => settle item :: settleItems rest

/-- Every member settled and written over the members before it. -/
def settleMembers : List (String × Json) → Object → Object
  | [], settled => settled
  | (key, value) :: rest, settled => settleMembers rest (settled.insert key (settle value))

end

/-- The value a whole text stands for. -/
def read? (dialect : Dialect) (text : String) : Option Json :=
  (readRaw? dialect text).map settle

/-- The dialect of stored and submitted texts: 127 nested containers, decimals
rounded in stages, overflow refused. -/
def standard : Dialect := ⟨127, NumberText.staged?⟩

/-- A submitted text. -/
def parse? (text : String) : Option Json := read? standard text

end RecordStore.Json
