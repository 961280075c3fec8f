/-
Module: RecordStore.Relational.JulianDay
Purpose: The dates that the `julianday` function of statements reads, in milliseconds.
  It takes a date, a date with a time, a time of 2000-01-01, the word `now`, or a number
  of days; whatever it cannot read has no day.
Main exports: JulianDay.milliseconds?
-/
import RecordStore.Relational.Value
import RecordStore.Time.Instant

namespace RecordStore.JulianDay

/-- Milliseconds of a day. -/
def dayLength : Int := 86400000

/-- The milliseconds from the Julian epoch to 1970. -/
def epoch : Int := 210866760000000

/-- The text after white space. -/
def skipSpace (cs : List Char) : List Char := cs.dropWhile SqlValue.isNumeralSpace

/-- The thousandths of a fraction of a second, a half rounded up. -/
def thousandths (digits : List Char) : Nat :=
  let scale := Nat.pow 10 digits.length
  (Numeral.natOf digits * 2000 + scale) / (2 * scale)

/-- Seconds with a fraction, in milliseconds, and what follows them. -/
def seconds? (cs : List Char) : Option (Nat × List Char) :=
  match cs with
  | ':' :: rest =>
    match fixedDigits? 2 rest with
    | none => none
    | some (seconds, rest) =>
      if 59 < seconds then none
      else
        match rest with
        | '.' :: more =>
          let digits := more.span Char.isDigit
          if digits.1.isEmpty then some (seconds * 1000, rest)
          else some (seconds * 1000 + thousandths digits.1, digits.2)
        | _ => some (seconds * 1000, rest)
  | _ => some (0, cs)

/-- An offset from universal time in minutes, which ends the text. -/
def zone? (cs : List Char) : Option Int :=
  match skipSpace cs with
  | [] => some 0
  | c :: rest =>
    if c = 'Z' || c = 'z' then if (skipSpace rest).isEmpty then some 0 else none
    else if c = '+' || c = '-' then do
      let (hours, rest) ← fixedDigits? 2 rest
      let rest ← expect? ':' rest
      let (minutes, rest) ← fixedDigits? 2 rest
      if 14 < hours || 59 < minutes || !(skipSpace rest).isEmpty then none
      else
        let offset : Int := (hours * 60 + minutes : Nat)
        some (if c = '-' then -offset else offset)
    else none

/-- A time of day with its offset, in milliseconds of universal time. -/
def time? (cs : List Char) : Option Int := do
  let (hours, rest) ← fixedDigits? 2 cs
  let rest ← expect? ':' rest
  let (minutes, rest) ← fixedDigits? 2 rest
  if 24 < hours || 59 < minutes then none
  let (millis, rest) ← seconds? rest
  let offset ← zone? rest
  return ((hours * 60 + minutes : Nat) : Int) * 60000 + millis - offset * 60000

/-- The milliseconds of a day since the Julian epoch; a day past the end of its month
counts on. -/
def ofDay (year month day : Nat) : Int :=
  let first := CalendarDay.toDays ⟨year, month, 1⟩
  epoch + (first + day - 1) * dayLength

/-- A date, alone or with a time after blanks or `T`. -/
def date? (cs : List Char) : Option Int := do
  let (year, rest) ← fixedDigits? 4 cs
  let rest ← expect? '-' rest
  let (month, rest) ← fixedDigits? 2 rest
  let rest ← expect? '-' rest
  let (day, rest) ← fixedDigits? 2 rest
  if month < 1 || 12 < month || day < 1 || 31 < day then none
  let rest := rest.dropWhile fun c => SqlValue.isNumeralSpace c || c == 'T'
  match rest with
  | [] => return ofDay year month day
  | _ => (time? rest).map fun millis => ofDay year month day + millis

/-- A number of days since the Julian epoch. -/
def number? (text : String) : Option Int :=
  match SqlValue.numeralOf? text with
  | some (.int days) => if 0 ≤ days && days < 5373485 then some (days * dayLength) else none
  | some (.real x) =>
    if x.isFinite && (!x.negative || x.isZero) then
      let millis :=
        (x.steps * dayLength.toNat * 2 + Binary64.stepsInOne) / (2 * Binary64.stepsInOne)
      if millis < 464269060800000 then some (millis : Nat) else none
    else none
  | _ => none

/-- A moment. -/
def ofInstant (now : Instant) : Int :=
  epoch + now.seconds * 1000 + (now.nanos / 1000000 : Nat)

/-- The day a text stands for at a moment, in milliseconds. -/
def milliseconds? (now : Instant) (text : String) : Option Int :=
  match date? text.toList with
  | some millis => some millis
  | none =>
    match time? text.toList with
    | some millis => some (ofDay 2000 1 1 + millis)
    | none => if Text.sameFolded text "now" then some (ofInstant now) else number? text

end RecordStore.JulianDay
