/-
Module: RecordStore.Pattern.Basic
Purpose: Regular expressions and searching a text with them.  A pattern moves a set of
  positions of a text forward; positions are numbered from zero and a set of them is
  kept as the binary digits of a number.
Main exports: Anchor, Pattern, Pattern.advance, Pattern.occursIn
-/
import RecordStore.Pattern.CharSet

namespace RecordStore

/-- Conditions on a position between two characters. -/
inductive Anchor where
  | textStart
  | textEnd
  /-- The start of a line; lines end in a line feed, or also in a carriage return. -/
  | lineStart (carriage : Bool)
  | lineEnd (carriage : Bool)
  /-- Exactly one of the neighbours is in the set of word characters. -/
  | boundary (letters : CharSet)
  | noBoundary (letters : CharSet)
  | wordStart (letters : CharSet)
  | wordEnd (letters : CharSet)
  | noWordBefore (letters : CharSet)
  | noWordAfter (letters : CharSet)
deriving Repr, Inhabited

namespace Anchor

/-- Whether a neighbour exists and is in a set. -/
def neighbour (set : CharSet) (c : Option Char) : Bool :=
  match c with
  | some c => set.holds c
  | none => false

/-- Whether the condition holds between two neighbours, which are absent at the ends. -/
def holds (condition : Anchor) (before after : Option Char) : Bool :=
  match condition with
  | .textStart => before.isNone
  | .textEnd => after.isNone
  | .lineStart false => before.isNone || before == some '\n'
  | .lineStart true =>
    before.isNone || before == some '\n' || (before == some '\r' && after != some '\n')
  | .lineEnd false => after.isNone || after == some '\n'
  | .lineEnd true =>
    after.isNone || after == some '\r' || (after == some '\n' && before != some '\r')
  | .boundary letters => neighbour letters before != neighbour letters after
  | .noBoundary letters => neighbour letters before == neighbour letters after
  | .wordStart letters => !neighbour letters before && neighbour letters after
  | .wordEnd letters => neighbour letters before && !neighbour letters after
  | .noWordBefore letters => !neighbour letters before
  | .noWordAfter letters => !neighbour letters after

end Anchor

/-- A regular expression. -/
inductive Pattern where
  /-- The empty text. -/
  | empty
  /-- One character of a set. -/
  | chars (set : CharSet)
  /-- A condition on the position, which takes no character. -/
  | anchor (condition : Anchor)
  | seq (first second : Pattern)
  | alt (first second : Pattern)
  /-- At least `least` and at most `most` times the body. -/
  | repeated (body : Pattern) (least : Nat) (most : Option Nat)
deriving Repr, Inhabited

/-- A set of positions in a text: position `i` belongs to it when bit `i` is set. -/
abbrev Positions := Nat

namespace Positions

/-- The positions that pass a test, given position by position. -/
def ofBools : List Bool → Positions
  | [] => 0
  | b :: rest => 2 * ofBools rest + (if b then 1 else 0)

/-- Every position of a text of a length, its end included. -/
def all (length : Nat) : Positions := Nat.pow 2 (length + 1) - 1

end Positions

namespace Pattern

/-- The positions whose next character is in a set. -/
def beforeChars (set : CharSet) (text : List Char) : Positions :=
  Positions.ofBools (text.map set.holds)

/-- Whether a condition holds at each position of a text from one with a given
character before it. -/
def anchorBools (condition : Anchor) (before : Option Char) : List Char → List Bool
  | [] => [condition.holds before none]
  | c :: rest => condition.holds before (some c) :: anchorBools condition (some c) rest

/-- A step repeated a number of times. -/
def iterate (step : Positions → Positions) : Nat → Positions → Positions
  | 0, here => here
  | times + 1, here => iterate step times (step here)

/-- The positions a step reaches in any number of repetitions up to a bound; it ends
early when no new position appears. -/
def reach (step : Positions → Positions) : Nat → Positions → Positions
  | 0, here => here
  | times + 1, here =>
    let next := here ||| step here
    if next = here then here else reach step times next

/-- The positions a pattern can end at when it starts at one of the given positions. -/
def advance (text : List Char) : Pattern → Positions → Positions
  | .empty, here => here
  | .chars set, here => (here &&& beforeChars set text) <<< 1
  | .anchor condition, here => here &&& Positions.ofBools (anchorBools condition none text)
  | .seq first second, here => second.advance text (first.advance text here)
  | .alt first second, here => first.advance text here ||| second.advance text here
  | .repeated body least most, here =>
    let times := match most with
      | some most => most - least
      | none => text.length + 1
    reach (body.advance text) times (iterate (body.advance text) least here)

/-- Whether the pattern matches some piece of a text. -/
def occursIn (pattern : Pattern) (text : String) : Bool :=
  let cs := text.toList
  pattern.advance cs (Positions.all cs.length) != 0

/-- The number of steps a pattern stands for once its counted repetitions are written out. -/
def weight : Pattern → Nat
  | .empty => 1
  | .chars _ => 1
  | .anchor _ => 1
  | .seq first second => first.weight + second.weight
  | .alt first second => first.weight + second.weight + 1
  | .repeated body least most => body.weight * (max least (most.getD 0) + 1) + 1

end Pattern

end RecordStore
