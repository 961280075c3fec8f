/-
Module: RecordStore.Toml.Scalar
Purpose: The numbers, flags and date-times of TOML text.  Integers have 64 bits; digits may
  be divided by single underscores.
Main exports: Toml.number?, Toml.dateTime?, Toml.flag?
-/
import RecordStore.Toml.Text
import RecordStore.Time.Instant

namespace RecordStore.Toml

/-- Digits up to the first other character, without the single underscores that stand
between two of them. -/
def moreDigits? (isDigit : Char → Bool) : List Char → Option (List Char × List Char)
  | [] => some ([], [])
  | '_' :: c :: rest => if isDigit c then prepend? (some c) (moreDigits? isDigit rest) else none
  | c :: rest =>
    if isDigit c then prepend? (some c) (moreDigits? isDigit rest) else some ([], c :: rest)

/-- One digit or more. -/
def digits? (isDigit : Char → Bool) : List Char → Option (List Char × List Char)
  | [] => none
  | c :: rest => if isDigit c then prepend? (some c) (moreDigits? isDigit rest) else none

/-- The digits before the point; a zero stands alone. -/
def wholeDigits? : List Char → Option (List Char × List Char)
  | '0' :: rest => some (['0'], rest)
  | cs => digits? Char.isDigit cs

/-- The digits after a point, if one stands here. -/
def fractionDigits? : List Char → Option (Option (List Char) × List Char)
  | '.' :: rest => (digits? Char.isDigit rest).map fun read => (some read.1, read.2)
  | cs => some (none, cs)

/-- The power of ten, if one stands here. -/
def exponent? : List Char → Option (Option Int × List Char)
  | [] => some (none, [])
  | c :: rest =>
    if c = 'e' || c = 'E' then
      let signed := Numeral.sign rest
      (digits? Char.isDigit signed.2).map fun read =>
        let value : Int := Numeral.natOf read.1
        (some (if signed.1 then -value else value), read.2)
    else some (none, c :: rest)

/-- An integer of 64 bits. -/
def integer? (value : Int) : Option Json := if fitsInt64 value then some (.int value) else none

/-- A number in decimal digits, behind its sign. -/
def decimal? (negative : Bool) (cs : List Char) : Option (Json × List Char) := do
  let (whole, cs) ← wholeDigits? cs
  let (fraction, cs) ← fractionDigits? cs
  let (exponent, cs) ← exponent? cs
  if fraction.isNone && exponent.isNone then
    let value : Int := Numeral.natOf whole
    let number ← integer? (if negative then -value else value)
    return (number, cs)
  else
    let part := fraction.getD []
    let x := Decimal.nearest negative
      ⟨Numeral.natOf (whole ++ part), exponent.getD 0 - (part.length : Int)⟩
    if x == Binary64.infinity false then none
    return (.num (.float x), cs)

/-- An integer in digits of another base, behind its mark. -/
def based? (base : Nat) (cs : List Char) : Option (Json × List Char) := do
  let isDigit (c : Char) : Bool := (Json.hexValue? c).any (· < base)
  let (digits, cs) ← digits? isDigit cs
  let number ← integer?
    ((digits.foldl (fun n c => n * base + (Json.hexValue? c).getD 0) 0 : Nat) : Int)
  return (number, cs)

/-- A number.  Too large a positive decimal is refused. -/
def number? (cs : List Char) : Option (Json × List Char) :=
  match cs with
  | '0' :: 'x' :: rest => based? 16 rest
  | '0' :: 'o' :: rest => based? 8 rest
  | '0' :: 'b' :: rest => based? 2 rest
  | _ =>
    let signed := Numeral.sign cs
    match signed.2 with
    | 'i' :: 'n' :: 'f' :: rest => some (.num (.float (Binary64.infinity signed.1)), rest)
    | 'n' :: 'a' :: 'n' :: rest => some (.num (.float Binary64.nan), rest)
    | unsigned => decimal? signed.1 unsigned

/-- A flag. -/
def flag? : List Char → Option (Json × List Char)
  | 't' :: 'r' :: 'u' :: 'e' :: rest => some (.bool true, rest)
  | 'f' :: 'a' :: 'l' :: 's' :: 'e' :: rest => some (.bool false, rest)
  | _ => none

/-- A day that exists, as it is written. -/
def date? (cs : List Char) : Option (List Char × List Char) := do
  let (day, rest) ← Instant.day? cs
  if day.isReal then return (cs.take 10, rest) else none

/-- A fraction of a second in its fewest digits. -/
def fractionText (nanos : Nat) : List Char :=
  if nanos = 0 then []
  else '.' :: ((padded 9 nanos).reverse.dropWhile (· == '0')).reverse

/-- A time of day. -/
def time? (cs : List Char) : Option (List Char × List Char) := do
  let (hour, rest) ← fixedDigits? 2 cs
  let rest ← expect? ':' rest
  let (minute, rest) ← fixedDigits? 2 rest
  let rest ← expect? ':' rest
  let (second, rest) ← fixedDigits? 2 rest
  let (nanos, rest) ← Instant.fraction? rest
  if hour ≤ 23 && minute ≤ 59 && second ≤ 60 then return (cs.take 8 ++ fractionText nanos, rest)
  else none

/-- The offset after a time, none if no offset stands here. -/
def offset (cs : List Char) : List Char × List Char :=
  match cs with
  | 'Z' :: rest => (['Z'], rest)
  | 'z' :: rest => (['Z'], rest)
  | sign :: h1 :: h2 :: ':' :: m1 :: m2 :: rest =>
    let isOffset := (sign == '+' || sign == '-') && [h1, h2, m1, m2].all Char.isDigit &&
      Numeral.natOf [h1, h2] ≤ 23 && Numeral.natOf [m1, m2] ≤ 59
    let mark := if [h1, h2, m1, m2].all (· == '0') then '+' else sign
    if isOffset then ([mark, h1, h2, ':', m1, m2], rest) else ([], cs)
  | _ => ([], cs)

/-- A date, a time, or both with or without an offset, in one form for each moment. -/
def dateTime? (cs : List Char) : Option (String × List Char) :=
  let read := match date? cs with
    | none => time? cs
    | some (date, rest) =>
      match rest with
      | [] => some (date, rest)
      | c :: more =>
        match if Instant.isSeparator c then time? more else none with
        | none => some (date, rest)
        | some (time, rest) =>
          let zone := offset rest
          some (date ++ 'T' :: (time ++ zone.1), zone.2)
  read.map fun found => (String.ofList found.1, found.2)

end RecordStore.Toml
