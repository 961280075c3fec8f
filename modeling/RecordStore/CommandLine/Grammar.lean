/-
Module: RecordStore.CommandLine.Grammar
Purpose: Reading the words of a command line by a grammar of switches, places and commands.
  A switch is written `--name value`, `--name=value`, `-n value`, `-nvalue` or `-n=value`;
  after the word `--` every word goes to a place.  What a switch was given is checked when
  the next argument begins, for the words before a command when that command has been read.
Main exports: Grammar, Grammar.read, Halt, Found
-/
import RecordStore.Text.Blank

namespace RecordStore.CommandLine

/-- How many words an argument takes. -/
inductive Arity where
  | none
  | one
  | any
deriving DecidableEq, Repr, Inhabited

/-- An argument: its name, the words it takes, and which of them it accepts.  One that
collects may be given again; its words are divided at commas. -/
structure Slot where
  name : String
  arity : Arity
  collects : Bool
  accepts : String → Bool

/-- An argument that is named where it is given. -/
structure Switch where
  slot : Slot
  letter : Option Char

/-- An argument that is known by its place. -/
structure Place where
  slot : Slot
  required : Bool

/-- The switches, the places in order, and the commands that may follow. -/
structure Grammar where
  switches : List Switch
  places : List Place
  commands : List String

/-- Why the reading of a command line stops: it asks for help or for the version, or it is
wrong. -/
inductive Halt where
  | help
  | version
  | misuse
deriving DecidableEq, Repr

/-- The words given under each name. -/
abbrev Found := List (String × List String)

namespace Found

/-- The words given under a name. -/
def get? (found : Found) (name : String) : Option (List String) :=
  (found.find? fun entry => entry.1 == name).map Prod.snd

/-- The word given under a name. -/
def word? (found : Found) (name : String) : Option String := (found.get? name).bind List.head?

/-- Words added under a name. -/
def add (found : Found) (name : String) (words : List String) : Found :=
  if (found.get? name).isSome then
    found.map fun entry => if entry.1 == name then (name, entry.2 ++ words) else entry
  else found ++ [(name, words)]

end Found

/-- The pieces of a word between its commas. -/
def pieces (word : String) : List String :=
  (Text.splitAt ',' word.toList).map String.ofList

/-- A reader of words: what it found, the argument whose words it is taking, whether the
next word belongs to that argument, the places left, and whether `--` was read. -/
structure Reading where
  found : Found
  pending : Option (Slot × List String)
  takesMore : Bool
  places : List Place
  literal : Bool

namespace Reading

/-- The reading at the first word. -/
def start (grammar : Grammar) : Reading := ⟨[], .none, false, grammar.places, false⟩

/-- An argument with its words. -/
def record (reading : Reading) (slot : Slot) (words : List String) : Except Halt Reading :=
  if slot.arity = .one && words.length ≠ 1 then .error .misuse
  else if !slot.collects && (reading.found.get? slot.name).isSome then .error .misuse
  else
    let words := if slot.collects then words.flatMap pieces else words
    if words.all slot.accepts then
      .ok { reading with found := reading.found.add slot.name words, takesMore := false }
    else .error .misuse

/-- The argument whose words were taken is complete. -/
def settle (reading : Reading) : Except Halt Reading :=
  match reading.pending with
  | .none => .ok reading
  | some (slot, words) => { reading with pending := .none }.record slot words

/-- A new argument whose words follow. -/
def await (reading : Reading) (slot : Slot) : Except Halt Reading :=
  reading.settle.map fun settled =>
    { settled with pending := some (slot, []), takesMore := true }

/-- A new argument with its words. -/
def give (reading : Reading) (slot : Slot) (words : List String) : Except Halt Reading :=
  match reading.settle with
  | .error halt => .error halt
  | .ok settled => settled.record slot words

/-- A stop that does not come before the last argument is complete. -/
def stop (reading : Reading) (halt : Halt) : Except Halt Reading :=
  match reading.settle with
  | .error earlier => .error earlier
  | .ok _ => .error halt

/-- A word of the argument that takes it. -/
def take (reading : Reading) (word : String) : Reading :=
  match reading.pending with
  | .none => reading
  | some (slot, words) =>
    { reading with pending := some (slot, words ++ [word]), takesMore := slot.arity == .any }

/-- A word in the next place. -/
def fill (reading : Reading) (word : String) : Except Halt Reading :=
  match reading.places with
  | [] => .error .misuse
  | place :: rest =>
    reading.settle.map fun settled =>
      { settled with pending := some (place.slot, [word]), takesMore := false, places := rest }

/-- What was found when no word is left. -/
def finish (reading : Reading) : Except Halt Found :=
  match reading.settle with
  | .error halt => .error halt
  | .ok settled =>
    if settled.places.any Place.required then .error .misuse else .ok settled.found

end Reading

namespace Grammar

/-- The name and the value of a word that begins with two dashes. -/
def longParts (body : List Char) : String × Option String :=
  let name := body.takeWhile (· != '=')
  (String.ofList name,
    match body.drop name.length with
    | [] => .none
    | _ :: value => some (String.ofList value))

/-- A switch by its name, with a value if one is attached. -/
def readLong (grammar : Grammar) (name : String) (value : Option String) (reading : Reading) :
    Except Halt Reading :=
  if name == "help" || name == "version" then
    if value.isSome then .error .misuse
    else reading.stop (if name == "help" then .help else .version)
  else
    match grammar.switches.find? fun switch => switch.slot.name == name with
    | .none => .error .misuse
    | some switch =>
      match switch.slot.arity, value with
      | .none, .none => reading.give switch.slot []
      | .none, some _ => .error .misuse
      | _, some word => reading.give switch.slot [word]
      | _, .none => reading.await switch.slot

/-- Switches by their letters; the first that takes a word takes what is left. -/
def readLetters (grammar : Grammar) : List Char → Reading → Except Halt Reading
  | [], reading => .ok reading
  | c :: rest, reading =>
    if c = 'h' then reading.stop .help
    else if c = 'V' then reading.stop .version
    else
      match grammar.switches.find? fun switch => switch.letter == some c with
      | .none => .error .misuse
      | some switch =>
        if switch.slot.arity = .none then
          match reading.give switch.slot [] with
          | .error halt => .error halt
          | .ok reading => readLetters grammar rest reading
        else
          match rest with
          | [] => reading.await switch.slot
          | '=' :: value => reading.give switch.slot [String.ofList value]
          | value => reading.give switch.slot [String.ofList value]

/-- One word that is no command and not `--`. -/
def readWord (grammar : Grammar) (word : String) (reading : Reading) : Except Halt Reading :=
  match word.toList with
  | '-' :: '-' :: body =>
    let parts := longParts body
    grammar.readLong parts.1 parts.2 reading
  | '-' :: c :: letters => grammar.readLetters (c :: letters) reading
  | _ => if reading.takesMore then .ok (reading.take word) else reading.fill word

/-- The words up to the first command, and the command with the words after it. -/
def readWords (grammar : Grammar) :
    List String → Reading → Except Halt (Reading × Option (String × List String))
  | [], reading => .ok (reading, .none)
  | word :: rest, reading =>
    if reading.literal then
      match reading.fill word with
      | .error halt => .error halt
      | .ok reading => readWords grammar rest reading
    else if !reading.takesMore && grammar.commands.contains word then
      .ok (reading, some (word, rest))
    else if word == "--" then readWords grammar rest { reading with literal := true }
    else
      match grammar.readWord word reading with
      | .error halt => .error halt
      | .ok reading => readWords grammar rest reading

/-- What the words give, if they hold no command. -/
def read (grammar : Grammar) (words : List String) : Except Halt Found :=
  match grammar.readWords words (Reading.start grammar) with
  | .error halt => .error halt
  | .ok (_, some _) => .error .misuse
  | .ok (reading, .none) => reading.finish

end Grammar

end RecordStore.CommandLine
