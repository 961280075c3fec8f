/-
Module: RecordStore.Pattern.Parser
Purpose: Reading regular expressions from text.  Flags set inside a group hold to the end
  of that group.  There is no look-around and there are no back-references.
Limits: Classes of Unicode properties (`\p`, `\P`) are not read: a pattern with one counts as
  malformed.  How large a pattern may be is bounded by its weight, a rough count of its parts,
  and not by the size of its compiled form.
Main exports: Pattern.parse?
-/
import RecordStore.Pattern.Basic
import RecordStore.Number.Numeral

namespace RecordStore.Pattern

/-- What the flags `i`, `m`, `s`, `u`, `R` and `x` switch. -/
structure Flags where
  /-- `i`: letters match without regard to case. -/
  folding : Bool
  /-- `m`: `^` and `$` match at line ends. -/
  lines : Bool
  /-- `s`: `.` matches line ends. -/
  dotAll : Bool
  /-- `u`: classes hold characters of any script. -/
  unicode : Bool
  /-- `R`: a carriage return ends a line. -/
  carriage : Bool
  /-- `x`: white space and comments do not count. -/
  spaced : Bool
deriving Repr, Inhabited

/-- The flags a pattern starts with. -/
def Flags.initial : Flags := ⟨false, false, false, true, false, false⟩

/-- The flags with one of them switched; none for an unknown letter.  `U` changes which
match is found, never whether there is one. -/
def Flags.switch? (flags : Flags) (letter : Char) (on : Bool) : Option Flags :=
  match letter with
  | 'i' => some { flags with folding := on }
  | 'm' => some { flags with lines := on }
  | 's' => some { flags with dotAll := on }
  | 'u' => some { flags with unicode := on }
  | 'R' => some { flags with carriage := on }
  | 'x' => some { flags with spaced := on }
  | 'U' => some flags
  | _ => none

/-- Where reading stands: the text ahead, the flags in force, the group names given. -/
structure Reading where
  ahead : List Char
  flags : Flags
  names : List (List Char)
deriving Inhabited

/-- The text without white space and comments at its head. -/
def dropSpace (inComment : Bool) : List Char → List Char
  | [] => []
  | c :: rest =>
    if inComment then dropSpace (c != '\n') rest
    else if Text.isBlank c then dropSpace false rest
    else if c = '#' then dropSpace true rest
    else c :: rest

namespace Reading

/-- Moves to a later place of the text. -/
def moveTo (here : Reading) (ahead : List Char) : Reading := { here with ahead := ahead }

/-- Passes white space and comments where they do not count. -/
def skip (here : Reading) : Reading :=
  if here.flags.spaced then here.moveTo (dropSpace false here.ahead) else here

/-- Moves to a later place and passes what does not count there. -/
def after (here : Reading) (ahead : List Char) : Reading := (here.moveTo ahead).skip

end Reading

/-- Characters that have a meaning of their own somewhere in a pattern. -/
def metaCharacters : List Char :=
  ['\\', '.', '+', '*', '?', '(', ')', '|', '[', ']', '\x7b', '\x7d', '^', '$', '#', '&', '-', '~']

/-- Characters that stand for themselves after a backslash. -/
def isEscapable (c : Char) : Bool :=
  metaCharacters.contains c || (c.toNat < 0x80 && !c.isAlphanum && c != '<' && c != '>')

/-- One item outside or inside a class. -/
inductive Item where
  | char (c : Char)
  | set (set : CharSet)
  | anchor (condition : Anchor)

/-- The class of a letter after a backslash. -/
def classEscape? (unicode : Bool) (c : Char) : Option CharSet :=
  let digits := if unicode then CharSet.digit else CharSet.asciiDigit
  let blanks := if unicode then CharSet.space else CharSet.asciiSpace
  let letters := if unicode then CharSet.word else CharSet.asciiWord
  match c with
  | 'd' => some digits
  | 's' => some blanks
  | 'w' => some letters
  | 'D' => if unicode then some (.compl digits) else none
  | 'S' => if unicode then some (.compl blanks) else none
  | 'W' => if unicode then some (.compl letters) else none
  | _ => none

/-- The characters of words under the flags. -/
def wordSet (flags : Flags) : CharSet := if flags.unicode then .word else CharSet.asciiWord

/-- The control character of a letter after a backslash. -/
def controlEscape? (c : Char) : Option Char :=
  match c with
  | 'a' => some '\x07'
  | 'f' => some '\x0c'
  | 't' => some '\t'
  | 'n' => some '\n'
  | 'r' => some '\r'
  | 'v' => some '\x0b'
  | _ => none

/-- The value of a hexadecimal digit. -/
def hexDigit? (c : Char) : Option Nat :=
  if '0' ≤ c ∧ c ≤ '9' then some (c.toNat - 48)
  else if 'a' ≤ c ∧ c ≤ 'f' then some (c.toNat - 87)
  else if 'A' ≤ c ∧ c ≤ 'F' then some (c.toNat - 55)
  else none

/-- The character of hexadecimal digits. -/
def hexChar? (digits : List Char) : Option Char :=
  if digits.isEmpty then none
  else
    (digits.mapM hexDigit?).bind fun values =>
      let code := values.foldl (fun n d => n * 16 + d) 0
      if code < 0xD800 || (0xE000 ≤ code && code < 0x110000) then some (Char.ofNat code) else none

/-- A fixed number of digits at the head of the text, with what does not count passed. -/
def fixedDigits? (here : Reading) : Nat → Option (List Char × Reading)
  | 0 => some ([], here)
  | count + 1 =>
    match here.ahead with
    | [] => none
    | c :: rest => (fixedDigits? (here.after rest) count).map fun read => (c :: read.1, read.2)

/-- The character written by hexadecimal digits after `x`, `u` or `U`: as many as the
letter asks, or any number between braces. -/
def hexEscape? (here : Reading) (letter : Char) : Option (Char × Reading) :=
  match here.ahead with
  | '\x7b' :: rest =>
    let digits := if here.flags.spaced then rest.filter fun c => !Text.isBlank c else rest
    match Text.cutAt '\x7d' digits, Text.cutAt '\x7d' rest with
    | some (inner, _), some (_, after) => (hexChar? inner).map fun c => (c, here.after after)
    | _, _ => none
  | _ =>
    let count := if letter = 'x' then 2 else if letter = 'u' then 4 else 8
    match fixedDigits? here count with
    | some (digits, after) => (hexChar? digits).map fun c => (c, after)
    | none => none

/-- The letters and hyphens of a name between braces. -/
def isBoundaryLetter (c : Char) : Bool := c.isAlpha || c == '-'

/-- The anchor after a `b` escape: a plain boundary, or one named between braces.  Braces
that do not open with a letter belong to a repetition. -/
def boundaryEscape? (here : Reading) : Option (Item × Reading) :=
  let letters := wordSet here.flags
  let plain : Option (Item × Reading) := some (.anchor (.boundary letters), here)
  match here.ahead with
  | '\x7b' :: rest =>
    let inner := (here.after rest).ahead
    match inner with
    | [] => none
    | c :: _ =>
      if isBoundaryLetter c then
        let name := inner.span isBoundaryLetter
        match name.2 with
        | '\x7d' :: tail =>
          match String.ofList name.1 with
          | "start" => some (.anchor (.wordStart letters), here.moveTo tail)
          | "end" => some (.anchor (.wordEnd letters), here.moveTo tail)
          | "start-half" => some (.anchor (.noWordBefore letters), here.moveTo tail)
          | "end-half" => some (.anchor (.noWordAfter letters), here.moveTo tail)
          | _ => none
        | _ => none
      else plain
  | _ => plain

/-- What stands after a backslash. -/
def escape? (here : Reading) : Option (Item × Reading) :=
  match here.ahead with
  | [] => none
  | c :: rest =>
    let next := here.moveTo rest
    if c = 'x' || c = 'u' || c = 'U' then
      (hexEscape? (here.after rest) c).map fun read => (.char read.1, read.2)
    else
      match classEscape? here.flags.unicode c, controlEscape? c with
      | some set, _ => some (.set set, next)
      | none, some control => some (.char control, next)
      | none, none =>
        if isEscapable c then some (.char c, next)
        else
          match c with
          | 'A' => some (.anchor .textStart, next)
          | 'z' => some (.anchor .textEnd, next)
          | 'b' => boundaryEscape? next
          | 'B' =>
            if here.flags.unicode then some (.anchor (.noBoundary .word), next) else none
          | '<' => some (.anchor (.wordStart (wordSet here.flags)), next)
          | '>' => some (.anchor (.wordEnd (wordSet here.flags)), next)
          | _ => none

/-- A set closed under case where the flags ask for it. -/
def foldSet (flags : Flags) (set : CharSet) : CharSet :=
  if flags.folding then
    if flags.unicode then .folded set
    else .inter (.range 0 0x7F) (.folded (.inter (.range 0 0x7F) set))
  else set

/-- The operations between the parts of a class. -/
inductive ClassOperation where
  | intersection
  | difference
  | symmetric

/-- The part of a class read so far joined with the operation that stands before it. -/
def joinPending (flags : Flags) (pending : Option (ClassOperation × CharSet)) (set : CharSet) :
    CharSet :=
  match pending with
  | none => set
  | some (operation, left) =>
    let left := foldSet flags left
    let right := foldSet flags set
    match operation with
    | .intersection => .inter left right
    | .difference => left.minus right
    | .symmetric => CharSet.either left right

/-- The operation at the head of the text, twice the same mark. -/
def classOperation? (cs : List Char) : Option (ClassOperation × List Char) :=
  match cs with
  | '&' :: '&' :: rest => some (.intersection, rest)
  | '-' :: '-' :: rest => some (.difference, rest)
  | '~' :: '~' :: rest => some (.symmetric, rest)
  | _ => none

/-- A POSIX class such as `[:alpha:]` or `[:^alpha:]`, after its bracket. -/
def asciiClass? (cs : List Char) : Option (Bool × CharSet × List Char) :=
  match cs with
  | ':' :: rest =>
    let named := match rest with
      | '^' :: more => (true, more)
      | more => (false, more)
    match Text.cutAt ':' named.2 with
    | some (name, ']' :: tail) =>
      (CharSet.asciiClass? (String.ofList name)).map fun set => (named.1, set, tail)
    | _ => none
  | _ => none

/-- One end of a range or one item of a class. -/
def classItem? (here : Reading) : Option (Item × Reading) :=
  match here.ahead with
  | [] => none
  | '\\' :: rest => escape? (here.moveTo rest)
  | c :: rest => some (.char c, here.moveTo rest)

/-- Whether a hyphen at the head of the text makes a range with what follows it. -/
def opensRange (here : Reading) : Bool :=
  match here.ahead with
  | '-' :: rest =>
    match (here.after rest).ahead with
    | ']' :: _ => false
    | '-' :: _ => false
    | _ => true
  | _ => false

/-- An item or a range of a class. -/
def classRange? (here : Reading) : Option (CharSet × Reading) :=
  match classItem? here with
  | none => none
  | some (item, next) =>
    let next := next.skip
    if opensRange next then
      match item, classItem? (next.after (next.ahead.drop 1)) with
      | .char first, some (.char last, tail) =>
        if first.toNat ≤ last.toNat then some (.range first.toNat last.toNat, tail) else none
      | _, _ => none
    else
      match item with
      | .char c => some (CharSet.single c, next)
      | .set set => some (set, next)
      | .anchor _ => none

/-- The hyphens, or else the closing bracket, that stand for themselves at the head of a
class. -/
def classHead (here : Reading) : Nat → CharSet → CharSet × Reading
  | 0, set => (set, here)
  | fuel + 1, set =>
    match here.ahead with
    | '-' :: rest => classHead (here.after rest) fuel (.union set (CharSet.single '-'))
    | ']' :: rest =>
      if set = .none then (CharSet.single ']', here.after rest) else (set, here)
    | _ => (set, here)

/-- Whether a class without `u` holds ASCII only. -/
def fitsEncoding (flags : Flags) (negated : Bool) (set : CharSet) : Bool :=
  flags.unicode || (!negated && !(List.range 128).any fun k => set.holdsCode (128 + k))

mutual

/-- A class after its opening bracket. -/
def classBody? : Nat → Reading → Option (CharSet × Reading)
  | 0, _ => none
  | fuel + 1, here =>
    let here := here.skip
    let opened := match here.ahead with
      | '^' :: rest => (true, here.after rest)
      | _ => (false, here)
    let head := classHead opened.2 opened.2.ahead.length .none
    match classItems? fuel none head.1 head.2 with
    | none => none
    | some (set, next) =>
      let closed := foldSet here.flags set
      if fitsEncoding here.flags opened.1 closed then
        some (if opened.1 then .compl closed else closed, next)
      else none

/-- The items of a class up to its closing bracket. -/
def classItems? : Nat → Option (ClassOperation × CharSet) → CharSet → Reading →
    Option (CharSet × Reading)
  | 0, _, _, _ => none
  | fuel + 1, pending, set, here =>
    let here := here.skip
    match here.ahead with
    | [] => none
    | ']' :: rest => some (joinPending here.flags pending set, here.moveTo rest)
    | '[' :: rest =>
      match asciiClass? rest with
      | some (negated, named, tail) =>
        let named := foldSet here.flags named
        classItems? fuel pending (.union set (if negated then .compl named else named))
          (here.moveTo tail)
      | none =>
        match classBody? fuel (here.moveTo rest) with
        | none => none
        | some (inner, next) => classItems? fuel pending (.union set inner) next
    | ahead =>
      match classOperation? ahead with
      | some (operation, rest) =>
        classItems? fuel (some (operation, joinPending here.flags pending set)) .none
          (here.moveTo rest)
      | none =>
        match classRange? here with
        | none => none
        | some (part, next) => classItems? fuel pending (.union set part) next

end

/-- The end of a flag list: the flags, and whether a colon opens a group. -/
def flagList? (flags : Flags) (seen : List Char) (on : Bool) (dangling : Bool) :
    List Char → Option (Flags × List Char × Bool × List Char)
  | [] => none
  | c :: rest =>
    if c = ':' || c = ')' then
      if dangling then none else some (flags, seen, c == ':', rest)
    else if seen.contains c then none
    else if c = '-' then flagList? flags (c :: seen) false true rest
    else
      match flags.switch? c on with
      | none => none
      | some flags => flagList? flags (c :: seen) on false rest

/-- Characters of a group name. -/
def isNameChar (first : Bool) (c : Char) : Bool :=
  c == '_' || (Text.isWord c && (!first || !Text.isDecimal c)) ||
    (!first && (c == '.' || c == '[' || c == ']'))

/-- A group name up to its closing angle, and what follows it. -/
def groupName? (names : List (List Char)) (cs : List Char) : Option (List Char × List Char) :=
  match Text.cutAt '>' cs with
  | none => none
  | some ([], _) => none
  | some (c :: more, rest) =>
    if isNameChar true c && more.all (isNameChar false) && !names.contains (c :: more) then
      some (c :: more, rest)
    else none

/-- What an opening parenthesis opens. -/
inductive Opening where
  /-- A group with the flags inside it. -/
  | group (inside : Reading)
  /-- Flags for what follows. -/
  | flags (next : Reading)

/-- What stands after an opening parenthesis. -/
def opening? (here : Reading) : Option Opening :=
  match here.ahead with
  | '?' :: 'P' :: '<' :: rest =>
    (groupName? here.names rest).map fun read =>
      .group { here with ahead := read.2, names := read.1 :: here.names }
  | '?' :: '<' :: rest =>
    match rest with
    | '=' :: _ => none
    | '!' :: _ => none
    | _ =>
      (groupName? here.names rest).map fun read =>
        .group { here with ahead := read.2, names := read.1 :: here.names }
  | '?' :: rest =>
    match flagList? here.flags [] true false rest with
    | none => none
    | some (flags, _, true, tail) => some (.group { here with ahead := tail, flags := flags })
    | some (_, [], false, _) => none
    | some (flags, _, false, tail) => some (.flags { here with ahead := tail, flags := flags })
  | _ => some (.group here)

/-- A count with white space around it, below `2 ^ 32`. -/
def repetitionCount? (cs : List Char) : Option (Nat × List Char) :=
  let digits := (cs.dropWhile Text.isBlank).span Char.isDigit
  match Numeral.nat? digits.1 with
  | none => none
  | some n => if n < 4294967296 then some (n, digits.2.dropWhile Text.isBlank) else none

/-- The bounds of a counted repetition after its opening brace. -/
def repetitionBounds? (cs : List Char) : Option (Nat × Option Nat × List Char) :=
  match repetitionCount? cs with
  | none => none
  | some (least, rest) =>
    match rest with
    | '\x7d' :: tail => some (least, some least, tail)
    | ',' :: more =>
      match more.dropWhile Text.isBlank with
      | '\x7d' :: tail => some (least, none, tail)
      | more =>
        match repetitionCount? more with
        | some (most, '\x7d' :: tail) =>
          if least ≤ most then some (least, some most, tail) else none
        | _ => none
    | _ => none

/-- A repetition mark at the head of the text, if one stands there; a question mark
after it only chooses among matches. -/
def repetition? (cs : List Char) : Option (Option (Nat × Option Nat × List Char)) :=
  let found : Option (Option (Nat × Option Nat × List Char)) :=
    match cs with
    | '?' :: rest => some (some (0, some 1, rest))
    | '*' :: rest => some (some (0, none, rest))
    | '+' :: rest => some (some (1, none, rest))
    | '\x7b' :: rest => (repetitionBounds? rest).map some
    | _ => some none
  match found with
  | some (some (least, most, '?' :: rest)) => some (some (least, most, rest))
  | found => found

/-- The pattern of one item. -/
def ofItem (flags : Flags) (item : Item) : Pattern :=
  match item with
  | .char c => .chars (foldSet flags (CharSet.single c))
  | .set set => .chars set
  | .anchor condition => .anchor condition

/-- A single character, escape or sign. -/
def primitive? (here : Reading) : Option (Pattern × Reading) :=
  match here.ahead with
  | [] => none
  | '\\' :: rest =>
    (escape? (here.moveTo rest)).map fun read => (ofItem here.flags read.1, read.2)
  | '.' :: rest =>
    if here.flags.unicode then
      let set := if here.flags.dotAll then CharSet.all
        else if here.flags.carriage then .compl (CharSet.ranges [('\n', '\n'), ('\r', '\r')])
        else .compl (CharSet.single '\n')
      some (.chars set, here.moveTo rest)
    else none
  | '^' :: rest =>
    some (.anchor (if here.flags.lines then .lineStart here.flags.carriage else .textStart),
      here.moveTo rest)
  | '$' :: rest =>
    some (.anchor (if here.flags.lines then .lineEnd here.flags.carriage else .textEnd),
      here.moveTo rest)
  | c :: rest => some (ofItem here.flags (.char c), here.moveTo rest)

/-- The parts read so far as one pattern; a repetition would have taken the last. -/
def join (done : Pattern) (last : Option Pattern) : Pattern :=
  match last with
  | none => done
  | some part => .seq done part

mutual

/-- Alternatives up to a closing parenthesis or the end. -/
def alternatives? : Nat → Reading → Option (Pattern × Reading)
  | 0, _ => none
  | fuel + 1, here =>
    match sequence? fuel .empty none here with
    | none => none
    | some (first, next) =>
      match next.ahead with
      | '|' :: rest =>
        (alternatives? fuel (next.moveTo rest)).map fun read => (.alt first read.1, read.2)
      | _ => some (first, next)

/-- Parts in sequence up to a bar, a closing parenthesis or the end. -/
def sequence? : Nat → Pattern → Option Pattern → Reading → Option (Pattern × Reading)
  | 0, _, _, _ => none
  | fuel + 1, done, last, here =>
    let here := here.skip
    match here.ahead with
    | [] => some (join done last, here)
    | '|' :: _ => some (join done last, here)
    | ')' :: _ => some (join done last, here)
    | '(' :: rest =>
      match opening? (here.after rest) with
      | none => none
      | some (.flags next) => sequence? fuel (join done last) none next
      | some (.group inside) =>
        match alternatives? fuel inside with
        | none => none
        | some (inner, next) =>
          match next.ahead with
          | ')' :: tail =>
            sequence? fuel (join done last) (some inner)
              { next with ahead := tail, flags := here.flags }
          | _ => none
    | '[' :: rest =>
      match classBody? fuel (here.moveTo rest) with
      | none => none
      | some (set, next) => sequence? fuel (join done last) (some (.chars set)) next
    | ahead =>
      match repetition? ahead with
      | none => none
      | some (some (least, most, rest)) =>
        match last with
        | none => none
        | some part => sequence? fuel done (some (.repeated part least most)) (here.moveTo rest)
      | some none =>
        match primitive? here with
        | none => none
        | some (part, next) => sequence? fuel (join done last) (some part) next

end

/-- The largest weight of a pattern; it stands for the limit on the size of a compiled one. -/
def weightLimit : Nat := 400000

/-- The pattern a text writes. -/
def parse? (text : String) : Option Pattern :=
  let cs := text.toList
  match alternatives? (2 * cs.length + 3) ⟨cs, Flags.initial, []⟩ with
  | some (pattern, rest) =>
    if rest.ahead.isEmpty && pattern.weight ≤ weightLimit then some pattern else none
  | none => none

end RecordStore.Pattern
