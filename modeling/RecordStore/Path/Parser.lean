/-
Module: RecordStore.Path.Parser
Purpose: Reading a path from text.

    path    := segment ("." segment)* "."?
    segment := name | name "[" digits "]" | name "[{" key ":" value "}]"

  Dots and brackets between quotes inside a selector do not count.
Main exports: FieldPath.parse, FieldPath.parseWith
-/
import RecordStore.Path.Basic
import RecordStore.Number.Numeral

namespace RecordStore.FieldPath

/-- The two characters that quote. -/
def isQuote (c : Char) : Bool := c == '\x22' || c == '\x27'

/-- The pieces of a path text between the dots outside brackets.  `depth` counts open
brackets and `quote` is the open quote, which only brackets can hold; `piece` is the
current piece in reverse. -/
def pieces (depth : Nat) (quote : Option Char) (piece : List Char) :
    List Char → Except PathFault (List (List Char))
  | [] =>
    if depth ≠ 0 || quote.isSome then .error .unterminated else .ok [piece.reverse]
  | c :: rest =>
    match quote with
    | some mark =>
      pieces depth (if c = mark then none else quote) (c :: piece) rest
    | none =>
      if isQuote c && decide (0 < depth) then pieces depth (some c) (c :: piece) rest
      else if c = '[' then pieces (depth + 1) none (c :: piece) rest
      else if c = ']' then
        match depth with
        | 0 => .error .unbalanced
        | depth + 1 => pieces depth none (c :: piece) rest
      else if c = '.' && depth == 0 then
        (pieces 0 none [] rest).map fun more => piece.reverse :: more
      else pieces depth none (c :: piece) rest

/-- Whether a bracket closes the selector before its last character. -/
def closesEarly (depth : Nat) (quote : Option Char) : List Char → Bool
  | [] => false
  | c :: rest =>
    match quote with
    | some mark => closesEarly depth (if c = mark then none else quote) rest
    | none =>
      if isQuote c then closesEarly depth (some c) rest
      else if c = '[' then closesEarly (depth + 1) none rest
      else if c = ']' then
        match depth with
        | 0 => true
        | depth + 1 => closesEarly depth none rest
      else closesEarly depth none rest

/-- The inside of a text that stands as a whole between two equal quotes. -/
def unquote? (cs : List Char) : Option (List Char) :=
  match cs with
  | [] => none
  | mark :: rest =>
    if isQuote mark && rest.getLast? == some mark && !rest.dropLast.contains mark then
      some rest.dropLast
    else none

/-- The key of a predicate, trimmed and unquoted. -/
def predicateKey (cs : List Char) : Except PathFault (List Char) :=
  let trimmed := Text.trimChars cs
  let key := (unquote? trimmed).getD trimmed
  if key.isEmpty || key.any (fun c => c == ',' || isQuote c) then .error .malformedPredicate
  else .ok key

/-- The value of a predicate, trimmed and unquoted; only a quoted one may hold commas
and colons or be empty. -/
def predicateValue (cs : List Char) : Except PathFault (List Char) :=
  let trimmed := Text.trimChars cs
  match unquote? trimmed with
  | some inner => .ok inner
  | none =>
    if trimmed.isEmpty then .error .emptyPredicateValue
    else if trimmed.any (fun c => c == ',' || c == ':') then .error .malformedPredicate
    else .ok trimmed

/-- The predicate written between the braces. -/
def predicate (body : List Char) : Except PathFault Segment :=
  match Text.cutAt ':' body with
  | none => .error .malformedPredicate
  | some (left, right) => do
    let key ← predicateKey left
    let value ← predicateValue right
    return .element (String.ofList key) (String.ofList value)

/-- The largest index. -/
def indexLimit : Nat := maxNat64

/-- The selector written between the brackets. -/
def selector (inner : List Char) : Except PathFault Segment :=
  let trimmed := Text.trimChars inner
  match trimmed with
  | '\x7b' :: body =>
    if body.getLast? = some '\x7d' then predicate body.dropLast else .error .openPredicate
  | _ =>
    match Numeral.nat? trimmed with
    | none => .error (.notAnIndex (String.ofList inner))
    | some n =>
      if n ≤ indexLimit then .ok (.index n) else .error (.indexTooLarge (String.ofList inner))

/-- The steps of one piece: a name, or a name with a selector. -/
def pieceSegments (piece : List Char) : Except PathFault (List Segment) :=
  match Text.cutAt '[' piece with
  | none => .ok [.name (String.ofList piece)]
  | some ([], _) => .error .selectorFirst
  | some (name, tail) =>
    if tail.getLast? ≠ some ']' || closesEarly 0 none tail.dropLast then .error .trailing
    else (selector tail.dropLast).map fun segment => [.name (String.ofList name), segment]

/-- The steps of the pieces in order, and whether an empty last piece makes the path
descend.  `first` tells that no piece stands before. -/
def assemble (first : Bool) : List (List Char) → Except PathFault (List Segment × Bool)
  | [] => .ok ([], false)
  | [piece] =>
    if piece.isEmpty then if first then .error .emptySegment else .ok ([], true)
    else (pieceSegments piece).map fun segments => (segments, false)
  | piece :: rest =>
    if piece.isEmpty then .error .emptySegment
    else do
      let segments ← pieceSegments piece
      let more ← assemble false rest
      return (segments ++ more.1, more.2)

/-- The steps a path text stands for. -/
def read (cs : List Char) : Except PathFault (List Segment × Bool) :=
  if cs.isEmpty then .error .empty
  else (pieces 0 none [] cs).bind (assemble true)

/-- Reads a path by the grammar. -/
def parse (raw : String) : Except PathError FieldPath :=
  match read raw.toList with
  | .ok (segments, descend) => .ok ⟨raw, segments, descend⟩
  | .error fault => .error (.parse raw fault)

/-- Reads a path, except that the name of an existing field addresses that field even if
it holds the punctuation of paths. -/
def parseWith (isField : String → Bool) (raw : String) : Except PathError FieldPath :=
  if raw ≠ "" && isField raw then .ok (field raw) else parse raw

end RecordStore.FieldPath
