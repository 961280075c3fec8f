/-
Module: RecordStore.Time.Instant
Purpose: Moments of universal time, read from and written as RFC 3339 date-times.  A leap
  second is the second `59` with a billion nanoseconds or more, so it sorts after that
  second and before the next minute.
Main exports: Instant, Instant.parse?, Instant.compare, Instant.minusDays, Instant.text
-/
import RecordStore.Number.Numeral

namespace RecordStore

/-- A moment: whole seconds since 1970 and nanoseconds of the second. -/
structure Instant where
  seconds : Int
  nanos : Nat
deriving DecidableEq, Repr, Inhabited

/-- The nanoseconds of a second. -/
def nanosInSecond : Nat := 1000000000

/-- A day of the Gregorian calendar. -/
structure CalendarDay where
  year : Int
  month : Nat
  day : Nat
deriving DecidableEq, Repr, Inhabited

namespace CalendarDay

/-- Whether a year has a leap day. -/
def isLeap (year : Int) : Bool :=
  year % 4 == 0 && (year % 100 != 0 || year % 400 == 0)

/-- The number of days of a month. -/
def monthLength (year : Int) (month : Nat) : Nat :=
  if month = 2 then (if isLeap year then 29 else 28)
  else if month = 4 || month = 6 || month = 9 || month = 11 then 30
  else 31

/-- Whether the day exists. -/
def isReal (d : CalendarDay) : Bool :=
  1 ≤ d.month && d.month ≤ 12 && 1 ≤ d.day && d.day ≤ monthLength d.year d.month

/-- Days since 1970-01-01.  Years are counted from March, so that leap days come last. -/
def toDays (d : CalendarDay) : Int :=
  let year := if d.month ≤ 2 then d.year - 1 else d.year
  let era := year / 400
  let ofEra := year % 400
  let month : Int := if d.month ≤ 2 then d.month + 9 else (d.month : Int) - 3
  let ofYear := (153 * month + 2) / 5 + d.day - 1
  era * 146097 + (ofEra * 365 + ofEra / 4 - ofEra / 100 + ofYear) - 719468

/-- The day a number of days since 1970-01-01. -/
def ofDays (days : Int) : CalendarDay :=
  let shifted := days + 719468
  let era := shifted / 146097
  let ofEra := shifted % 146097
  let yearOfEra := (ofEra - ofEra / 1460 + ofEra / 36524 - ofEra / 146096) / 365
  let ofYear := ofEra - (365 * yearOfEra + yearOfEra / 4 - yearOfEra / 100)
  let month := (5 * ofYear + 2) / 153
  let day := ofYear - (153 * month + 2) / 5 + 1
  let civil := if month < 10 then month + 3 else month - 9
  ⟨yearOfEra + era * 400 + (if civil ≤ 2 then 1 else 0), civil.toNat, day.toNat⟩

end CalendarDay

/-- The number of `width` digits at the head of a text, and what follows them. -/
def fixedDigits? (width : Nat) (cs : List Char) : Option (Nat × List Char) :=
  let head := cs.take width
  if head.length = width && head.all Char.isDigit then some (Numeral.natOf head, cs.drop width)
  else none

/-- The text after a fixed character. -/
def expect? (mark : Char) (cs : List Char) : Option (List Char) :=
  match cs with
  | c :: rest => if c = mark then some rest else none
  | [] => none

/-- A number in at least `width` digits. -/
def padded (width n : Nat) : List Char :=
  let digits := digitsOf n
  List.replicate (width - digits.length) '0' ++ digits

namespace Instant

/-- The nanoseconds of a fraction of a second; digits beyond the ninth are cut. -/
def nanosOf (digits : List Char) : Nat :=
  let head := digits.take 9
  Numeral.natOf head * Nat.pow 10 (9 - head.length)

/-- An optional fraction: a point with at least one digit. -/
def fraction? (cs : List Char) : Option (Nat × List Char) :=
  match cs with
  | '.' :: rest =>
    let digits := rest.span Char.isDigit
    if digits.1.isEmpty then none else some (nanosOf digits.1, digits.2)
  | _ => some (0, cs)

/-- An offset in seconds, `Z` or a sign with hours up to 23 and minutes up to 59; it ends
the text. -/
def offset? (cs : List Char) : Option Int :=
  match cs with
  | ['Z'] => some 0
  | ['z'] => some 0
  | sign :: rest => do
    let negative ← if sign = '+' then some false
      else if sign = '-' || sign = '\u2212' then some true else none
    let (hours, rest) ← fixedDigits? 2 rest
    let rest ← expect? ':' rest
    let (minutes, rest) ← fixedDigits? 2 rest
    if rest.isEmpty && hours ≤ 23 && minutes ≤ 59 then
      let seconds : Int := ((hours * 60 + minutes) * 60 : Nat)
      some (if negative then -seconds else seconds)
    else none
  | [] => none

/-- The day at the head of a text. -/
def day? (cs : List Char) : Option (CalendarDay × List Char) := do
  let (year, cs) ← fixedDigits? 4 cs
  let cs ← expect? '-' cs
  let (month, cs) ← fixedDigits? 2 cs
  let cs ← expect? '-' cs
  let (day, cs) ← fixedDigits? 2 cs
  return (⟨year, month, day⟩, cs)

/-- The characters between day and time. -/
def isSeparator (c : Char) : Bool := c == 'T' || c == 't' || c == ' '

/-- Reads an RFC 3339 date-time. -/
def parse? (text : String) : Option Instant := do
  let (day, cs) ← day? text.toList
  let cs ← match cs with
    | c :: rest => if isSeparator c then some rest else none
    | [] => none
  let (hour, cs) ← fixedDigits? 2 cs
  let cs ← expect? ':' cs
  let (minute, cs) ← fixedDigits? 2 cs
  let cs ← expect? ':' cs
  let (second, cs) ← fixedDigits? 2 cs
  let (nanos, cs) ← fraction? cs
  let offset ← offset? cs
  if day.isReal && hour ≤ 23 && minute ≤ 59 && second ≤ 60 then
    let whole := if second = 60 then 59 else second
    let ofDay : Nat := (hour * 60 + minute) * 60 + whole
    return ⟨day.toDays * 86400 + ofDay - offset,
      if second = 60 then nanos + nanosInSecond else nanos⟩
  else none

/-- Order in time. -/
def compare (a b : Instant) : Ordering :=
  (Ord.compare a.seconds b.seconds).then (Ord.compare a.nanos b.nanos)

/-- The moment a number of whole days earlier; from a leap second it counts as the second
after it. -/
def minusDays (t : Instant) (days : Nat) : Instant :=
  if nanosInSecond ≤ t.nanos then ⟨t.seconds + 1 - days * 86400, t.nanos - nanosInSecond⟩
  else ⟨t.seconds - days * 86400, t.nanos⟩

/-- A year in four digits, with a sign when it has more or is negative. -/
def yearChars (year : Int) : List Char :=
  if 0 ≤ year && year ≤ 9999 then padded 4 year.toNat
  else (if year < 0 then '-' else '+') :: padded 4 year.natAbs

/-- The date-time of a moment in universal time, cut to milliseconds. -/
def text (t : Instant) : String :=
  let day := CalendarDay.ofDays (t.seconds / 86400)
  let ofDay := (t.seconds % 86400).toNat
  let leap := if nanosInSecond ≤ t.nanos then 1 else 0
  String.ofList (yearChars day.year ++ '-' :: (padded 2 day.month ++ '-' :: (padded 2 day.day ++
    'T' :: (padded 2 (ofDay / 3600) ++ ':' :: (padded 2 (ofDay / 60 % 60) ++
    ':' :: (padded 2 (ofDay % 60 + leap) ++ '.' :: (padded 3 (t.nanos % nanosInSecond / 1000000) ++
    ['Z'])))))))

end Instant

end RecordStore
