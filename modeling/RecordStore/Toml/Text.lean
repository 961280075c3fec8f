/-
Module: RecordStore.Toml.Text
Purpose: The outer form of TOML text: gaps, comments, line breaks, and the four kinds of
  quoted text.  Readers take what stands at the head of a text and answer what follows it.
Main exports: Toml.skipGap, Toml.skipLines, Toml.lineEnd?, Toml.string?, Toml.keyText?
-/
import RecordStore.Json.Reader

namespace RecordStore.Toml

/-- Space and tab. -/
def isGap (c : Char) : Bool := c == ' ' || c == '\t'

/-- The text after a gap. -/
def skipGap (cs : List Char) : List Char := cs.dropWhile isGap

/-- The characters of comments and quoted texts: tab, and all that are no controls. -/
def isPlain (c : Char) : Bool := c == '\t' || (0x20 ≤ c.toNat && c.toNat != 0x7F)

/-- The text after a line break. -/
def newline? : List Char → Option (List Char)
  | '\n' :: rest => some rest
  | '\r' :: '\n' :: rest => some rest
  | _ => none

/-- The text after a comment, if one stands here. -/
def skipComment : List Char → List Char
  | '#' :: rest => rest.dropWhile isPlain
  | cs => cs

/-- The text after the end of a line: a gap, a comment, and a line break unless the text
ends. -/
def lineEnd? (cs : List Char) : Option (List Char) :=
  match skipComment (skipGap cs) with
  | [] => some []
  | rest => newline? rest

/-- The text after gaps, line breaks and comments, from inside a comment or not. -/
def skipLines (inComment : Bool) : List Char → List Char
  | '\r' :: '\n' :: rest => skipLines false rest
  | c :: rest =>
    if c = '\n' then skipLines false rest
    else if inComment && isPlain c then skipLines true rest
    else if isGap c then skipLines false rest
    else if c = '#' then skipLines true rest
    else c :: rest
  | [] => []

/-- The character after a backslash that stands alone. -/
def simpleEscape? (c : Char) : Option Char :=
  if c = '/' then none else Json.simpleEscape? c

/-- The character of a number in hexadecimal digits. -/
def scalar? (digits : List Char) : Option Char :=
  (digits.foldlM (fun n c => (Json.hexValue? c).map fun d => n * 16 + d) 0).bind fun n =>
    if n < 0xD800 || (0xDFFF < n && n < 0x110000) then some (Char.ofNat n) else none

/-- A character in front of the text that is read after it. -/
def prepend? (c : Option Char) (read : Option (List Char × List Char)) :
    Option (List Char × List Char) :=
  match c, read with
  | some c, some (body, rest) => some (c :: body, rest)
  | _, _ => none

/-- A text on one line in double quotes, from behind the opening one. -/
def basicTail? : List Char → Option (List Char × List Char)
  | [] => none
  | c :: rest =>
    if c = '\x22' then some ([], rest)
    else if c = '\\' then
      match rest with
      | 'u' :: h1 :: h2 :: h3 :: h4 :: more => prepend? (scalar? [h1, h2, h3, h4]) (basicTail? more)
      | 'U' :: h1 :: h2 :: h3 :: h4 :: h5 :: h6 :: h7 :: h8 :: more =>
        prepend? (scalar? [h1, h2, h3, h4, h5, h6, h7, h8]) (basicTail? more)
      | e :: more => prepend? (simpleEscape? e) (basicTail? more)
      | [] => none
    else if isPlain c then prepend? (some c) (basicTail? rest)
    else none

/-- A text on one line in single quotes, from behind the opening one. -/
def literalTail? : List Char → Option (List Char × List Char)
  | [] => none
  | c :: rest =>
    if c = '\x27' then some ([], rest)
    else if isPlain c then prepend? (some c) (literalTail? rest)
    else none

/-- What follows three quotes that end a text: up to two more quotes are the text's last
characters, and the three are those after them. -/
def closing (quote : Char) (rest : List Char) : List Char × List Char :=
  let extra := (rest.takeWhile (· == quote)).take 2
  (extra, rest.drop extra.length)

/-- Where the reader of a text on several lines is: in the text, behind a backslash that
must end its line, or behind such a line. -/
inductive Position where
  | inText
  | beforeBreak
  | afterBreak
deriving DecidableEq, Repr

/-- A text on several lines in double quotes, from behind the opening three.  A backslash
at the end of a line joins the text to what follows the gaps and line breaks after it. -/
def basicLines? (position : Position) : List Char → Option (List Char × List Char)
  | [] => none
  | '\x22' :: '\x22' :: '\x22' :: rest =>
    if position = .beforeBreak then none else some (closing '\x22' rest)
  | '\r' :: '\n' :: rest =>
    if position = .inText then prepend? (some '\n') (basicLines? .inText rest)
    else basicLines? .afterBreak rest
  | c :: rest =>
    if c = '\n' then
      if position = .inText then prepend? (some '\n') (basicLines? .inText rest)
      else basicLines? .afterBreak rest
    else if position ≠ .inText && isGap c then basicLines? position rest
    else if position = .beforeBreak then none
    else if c = '\\' then
      match rest with
      | 'u' :: h1 :: h2 :: h3 :: h4 :: more =>
        prepend? (scalar? [h1, h2, h3, h4]) (basicLines? .inText more)
      | 'U' :: h1 :: h2 :: h3 :: h4 :: h5 :: h6 :: h7 :: h8 :: more =>
        prepend? (scalar? [h1, h2, h3, h4, h5, h6, h7, h8]) (basicLines? .inText more)
      | e :: more =>
        match simpleEscape? e with
        | some plain => prepend? (some plain) (basicLines? .inText more)
        | none =>
          if isGap e || e = '\n' || e = '\r' then basicLines? .beforeBreak (e :: more) else none
      | [] => none
    else if isPlain c then prepend? (some c) (basicLines? .inText rest)
    else none

/-- A text on several lines in single quotes, from behind the opening three. -/
def literalLines? : List Char → Option (List Char × List Char)
  | [] => none
  | '\x27' :: '\x27' :: '\x27' :: rest => some (closing '\x27' rest)
  | '\r' :: '\n' :: rest => prepend? (some '\n') (literalLines? rest)
  | c :: rest => if c = '\n' || isPlain c then prepend? (some c) (literalLines? rest) else none

/-- The text after the line break that may follow opening quotes. -/
def afterOpening (cs : List Char) : List Char := (newline? cs).getD cs

/-- A quoted text of any kind. -/
def string? (cs : List Char) : Option (String × List Char) :=
  let read := match cs with
    | '\x22' :: '\x22' :: '\x22' :: rest => basicLines? .inText (afterOpening rest)
    | '\x27' :: '\x27' :: '\x27' :: rest => literalLines? (afterOpening rest)
    | '\x22' :: rest => basicTail? rest
    | '\x27' :: rest => literalTail? rest
    | _ => none
  read.map fun found => (String.ofList found.1, found.2)

/-- The characters of keys without quotes. -/
def isBare (c : Char) : Bool := c.isAlphanum || c == '-' || c == '_'

/-- One part of a key: bare, or quoted on one line. -/
def keyText? (cs : List Char) : Option (String × List Char) :=
  let read := match cs with
    | '\x22' :: rest => basicTail? rest
    | '\x27' :: rest => literalTail? rest
    | _ =>
      let bare := cs.span isBare
      if bare.1.isEmpty then none else some bare
  read.map fun found => (String.ofList found.1, found.2)

end RecordStore.Toml
