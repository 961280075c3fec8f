/-
Module: RecordStore.Pattern.CharSet
Purpose: Sets of characters as patterns write them: ranges, classes of the Unicode
  standard or of ASCII, and their unions, intersections, complements and closures
  under case folding.
Main exports: CharSet, CharSet.holds, CharSet.asciiClass?
-/
import RecordStore.Text.Letters

namespace RecordStore

/-- A set of characters. -/
inductive CharSet where
  /-- No character. -/
  | none
  /-- The code points from the first to the last. -/
  | range (first last : Nat)
  /-- Decimal digits of any script. -/
  | digit
  /-- Unicode white space. -/
  | space
  /-- Characters of words of any script. -/
  | word
  | union (left right : CharSet)
  | inter (left right : CharSet)
  | compl (inner : CharSet)
  /-- The characters that differ in case only from a character of the set. -/
  | folded (inner : CharSet)
deriving DecidableEq, Repr, Inhabited

namespace CharSet

/-- Membership of a code point. -/
def holdsCode (set : CharSet) (code : Nat) : Bool :=
  match set with
  | .none => false
  | .range first last => first ≤ code && code ≤ last
  | .digit => Text.isDecimal (Char.ofNat code)
  | .space => Text.isBlank (Char.ofNat code)
  | .word => Text.isWord (Char.ofNat code)
  | .union left right => left.holdsCode code || right.holdsCode code
  | .inter left right => left.holdsCode code && right.holdsCode code
  | .compl inner => !inner.holdsCode code
  | .folded inner => (Text.caseVariants code).any fun variant => inner.holdsCode variant

/-- Membership of a character. -/
def holds (set : CharSet) (c : Char) : Bool := set.holdsCode c.toNat

/-- The set of one character. -/
def single (c : Char) : CharSet := .range c.toNat c.toNat

/-- Every character. -/
def all : CharSet := .compl .none

/-- The characters of the first set that are not in the second. -/
def minus (left right : CharSet) : CharSet := .inter left (.compl right)

/-- The characters of exactly one of two sets. -/
def either (left right : CharSet) : CharSet :=
  .union (left.minus right) (right.minus left)

/-- The union of several ranges, written by their ends. -/
def ranges : List (Char × Char) → CharSet
  | [] => .none
  | [(first, last)] => .range first.toNat last.toNat
  | (first, last) :: rest => .union (.range first.toNat last.toNat) (ranges rest)

/-- ASCII letters and digits. -/
def asciiAlnum : CharSet := ranges [('0', '9'), ('A', 'Z'), ('a', 'z')]

/-- ASCII digits. -/
def asciiDigit : CharSet := ranges [('0', '9')]

/-- ASCII white space. -/
def asciiSpace : CharSet := ranges [('\t', '\r'), (' ', ' ')]

/-- ASCII letters, digits and the low line. -/
def asciiWord : CharSet := .union asciiAlnum (single '_')

/-- ASCII punctuation. -/
def asciiPunct : CharSet := ranges [('!', '/'), (':', '@'), ('[', '\x60'), ('\x7b', '~')]

/-- The ASCII class of a POSIX name. -/
def asciiClass? (name : String) : Option CharSet :=
  match name with
  | "alnum" => some asciiAlnum
  | "alpha" => some (ranges [('A', 'Z'), ('a', 'z')])
  | "ascii" => some (.range 0 0x7F)
  | "blank" => some (ranges [('\t', '\t'), (' ', ' ')])
  | "cntrl" => some (.union (.range 0 0x1F) (.range 0x7F 0x7F))
  | "digit" => some asciiDigit
  | "graph" => some (ranges [('!', '~')])
  | "lower" => some (ranges [('a', 'z')])
  | "print" => some (ranges [(' ', '~')])
  | "punct" => some asciiPunct
  | "space" => some asciiSpace
  | "upper" => some (ranges [('A', 'Z')])
  | "word" => some asciiWord
  | "xdigit" => some (ranges [('0', '9'), ('A', 'F'), ('a', 'f')])
  | _ => .none

end CharSet

end RecordStore
