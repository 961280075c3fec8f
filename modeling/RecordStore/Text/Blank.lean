/-
Module: RecordStore.Text.Blank
Purpose: White space, trimming and case folding of texts.  Names, tokens and
  numerals are trimmed of Unicode white space and compared without ASCII case.
Main exports: Text.isBlank, Text.trim, Text.lower, Text.sameFolded
-/

namespace RecordStore.Text

/-- Membership in the Unicode property `White_Space`. -/
def isBlank (c : Char) : Bool :=
  let n := c.toNat
  (9 ≤ n && n ≤ 13) || n == 0x20 || n == 0x85 || n == 0xA0 || n == 0x1680 ||
    (0x2000 ≤ n && n ≤ 0x200A) || n == 0x2028 || n == 0x2029 || n == 0x202F ||
    n == 0x205F || n == 0x3000

/-- The characters left when blanks are dropped at both ends. -/
def trimChars (cs : List Char) : List Char :=
  ((cs.dropWhile isBlank).reverse.dropWhile isBlank).reverse

/-- A text without the blanks at its two ends. -/
def trim (s : String) : String :=
  String.ofList (trimChars s.toList)

/-- ASCII capitals become small letters; every other character stays. -/
def lower (s : String) : String :=
  String.ofList (s.toList.map Char.toLower)

/-- Two texts that differ in ASCII case only. -/
def sameFolded (a b : String) : Bool :=
  lower a == lower b

/-- The characters before and after the first `mark`, or nothing when there is none. -/
def cutAt (mark : Char) : List Char → Option (List Char × List Char)
  | [] => none
  | c :: rest =>
    if c = mark then some ([], rest)
    else (cutAt mark rest).map fun halves => (c :: halves.1, halves.2)

/-- The pieces between the occurrences of `mark`; there is always at least one. -/
def splitAt (mark : Char) : List Char → List (List Char)
  | [] => [[]]
  | c :: rest =>
    if c = mark then [] :: splitAt mark rest
    else
      match splitAt mark rest with
      | [] => [[c]]
      | piece :: pieces => (c :: piece) :: pieces

/-- Order by code point, which is also the order of the UTF-8 bytes. -/
def compareChars : List Char → List Char → Ordering
  | [], [] => .eq
  | [], _ :: _ => .lt
  | _ :: _, [] => .gt
  | a :: as, b :: bs =>
    if a.toNat < b.toNat then .lt
    else if b.toNat < a.toNat then .gt
    else compareChars as bs

/-- Order of two texts by code point. -/
def compare (a b : String) : Ordering :=
  compareChars a.toList b.toList

end RecordStore.Text
