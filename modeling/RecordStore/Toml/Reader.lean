/-
Module: RecordStore.Toml.Reader
Purpose: Reading TOML documents into trees of settings.  A date-time becomes an object with
  one member that holds its text.  Keys have fewer than 80 parts, and fewer than 80 arrays
  and inline tables stand inside one another.
Main exports: Toml.parse?
-/
import RecordStore.Toml.Scalar
import RecordStore.Toml.Table

namespace RecordStore.Toml

/-- The bound on the parts of keys and on nesting. -/
def nestingLimit : Nat := 80

/-- The parts of a key between points, and what follows the gap after them. -/
def keyParts? : Nat → List Char → Option (List String × List Char)
  | 0, _ => none
  | fuel + 1, cs =>
    match keyText? (skipGap cs) with
    | none => none
    | some (name, rest) =>
      match skipGap rest with
      | '.' :: more => (keyParts? fuel more).map fun read => (name :: read.1, read.2)
      | rest => some ([name], rest)

/-- A key. -/
def key? (cs : List Char) : Option (List String × List Char) := do
  let (parts, rest) ← keyParts? (cs.length + 1) cs
  if parts.length < nestingLimit then return (parts, rest) else none

/-- The member that holds the text of a date-time. -/
def dateTimeKey : String := "$__toml_private_datetime"

/-- A value that is no container. -/
def scalarValue? (cs : List Char) : Option (Json × List Char) :=
  match cs with
  | [] => none
  | c :: _ =>
    if c = '\x22' || c = '\x27' then (string? cs).map fun read => (.str read.1, read.2)
    else if c = 't' || c = 'f' then flag? cs
    else
      match dateTime? cs with
      | some (text, rest) => some (.obj [(dateTimeKey, .str text)], rest)
      | none => number? cs

mutual

/-- A value.  `fuel` bounds the steps, `depth` the containers that may still be opened. -/
def value? : Nat → Nat → List Char → Option (Json × List Char)
  | 0, _, _ => none
  | fuel + 1, depth, cs =>
    match cs, depth with
    | '[' :: _, 0 => none
    | '\x7b' :: _, 0 => none
    | '[' :: rest, depth + 1 =>
      match skipLines false rest with
      | ']' :: after => some (.arr [], after)
      | inner => (items? fuel depth inner).map fun read => (.arr read.1, read.2)
    | '\x7b' :: rest, depth + 1 =>
      match skipGap rest with
      | '\x7d' :: after => some (.obj [], after)
      | inner => (pairs? fuel depth [] inner).map fun read => (.obj read.1.toObject, read.2)
    | cs, _ => scalarValue? cs

/-- The elements of an array up to its closing bracket; a comma may follow the last. -/
def items? : Nat → Nat → List Char → Option (List Json × List Char)
  | 0, _, _ => none
  | fuel + 1, depth, cs =>
    match value? fuel depth cs with
    | none => none
    | some (item, rest) =>
      match skipLines false rest with
      | ']' :: after => some ([item], after)
      | ',' :: more =>
        match skipLines false more with
        | ']' :: after => some ([item], after)
        | more => (items? fuel depth more).map fun read => (item :: read.1, read.2)
      | _ => none

/-- The members of an inline table up to its closing brace, added to those before them. -/
def pairs? : Nat → Nat → Members → List Char → Option (Members × List Char)
  | 0, _, _, _ => none
  | fuel + 1, depth, members, cs =>
    match key? cs with
    | some (parts, '=' :: rest) =>
      match value? fuel depth (skipGap rest) with
      | none => none
      | some (value, rest) =>
        match members.assign? parts.dropLast (parts.getLast?.getD "") value with
        | none => none
        | some members =>
          match skipGap rest with
          | '\x7d' :: after => some (members, after)
          | ',' :: more => pairs? fuel depth members more
          | _ => none
    | _ => none

end

/-- A document while it is read: its tables, and the path of the table that key-value lines
add to. -/
structure Draft where
  root : Members
  header : List String
deriving Inhabited

namespace Draft

/-- The draft under a new header. -/
def enter? (draft : Draft) (path : List String)
    (change : String → Members → Option Members) : Option Draft :=
  (Members.alter .implied (fun _ members => change (path.getLast?.getD "") members)
    path.dropLast .stated draft.root).map fun root => ⟨root, path⟩

/-- The draft with a value under a key of the table it is in. -/
def assign? (draft : Draft) (parts : List String) (value : Json) : Option Draft :=
  (Members.alter .implied (fun _ members =>
    members.assign? parts.dropLast (parts.getLast?.getD "") value)
    draft.header .stated draft.root).map fun root => ⟨root, draft.header⟩

end Draft

/-- A header: a table in brackets, or one more table of a list in double brackets. -/
def header? (draft : Draft) (cs : List Char) : Option (Draft × List Char) :=
  match cs with
  | '[' :: '[' :: rest =>
    match key? rest with
    | some (path, ']' :: ']' :: rest) => do
      let rest ← lineEnd? rest
      return (← draft.enter? path Members.openElement?, rest)
    | _ => none
  | '[' :: rest =>
    match key? rest with
    | some (path, ']' :: rest) => do
      let rest ← lineEnd? rest
      return (← draft.enter? path Members.openTable?, rest)
    | _ => none
  | _ => none

/-- A line that gives a key a value. -/
def assignment? (draft : Draft) (cs : List Char) : Option (Draft × List Char) :=
  match key? cs with
  | some (parts, '=' :: rest) => do
    let (value, rest) ← value? (2 * rest.length + 2) (nestingLimit - 1) (skipGap rest)
    let rest ← lineEnd? rest
    return (← draft.assign? parts value, rest)
  | _ => none

/-- One line: empty, a comment, a header, or a key with its value. -/
def line? (draft : Draft) (cs : List Char) : Option (Draft × List Char) :=
  match cs with
  | '[' :: _ => header? draft cs
  | '#' :: _ => (lineEnd? cs).map fun rest => (draft, rest)
  | _ =>
    match newline? cs with
    | some rest => some (draft, rest)
    | none => assignment? draft cs

/-- All lines. -/
def document? : Nat → Draft → List Char → Option Draft
  | 0, _, _ => none
  | fuel + 1, draft, cs =>
    match skipGap cs with
    | [] => some draft
    | cs =>
      match line? draft cs with
      | none => none
      | some (draft, rest) => document? fuel draft rest

/-- The text after a byte order mark. -/
def skipMark : List Char → List Char
  | '\uFEFF' :: rest => rest
  | cs => cs

/-- The settings of a whole document. -/
def parse? (text : String) : Option Json :=
  let cs := skipMark text.toList
  (document? (cs.length + 1) ⟨[], []⟩ cs).map fun draft => .obj draft.root.toObject

end RecordStore.Toml
