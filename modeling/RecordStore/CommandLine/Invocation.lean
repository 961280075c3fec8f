/-
Module: RecordStore.CommandLine.Invocation
Purpose: The commands of the program and how its command line gives them.
Main exports: Command, Invocation, Invocation.parse
-/
import RecordStore.CommandLine.Grammar

namespace RecordStore.CommandLine

/-- The backends a command can run against. -/
inductive BackendChoice where
  | document
  | relational
deriving DecidableEq, Repr, Inhabited

/-- The backend of a word. -/
def BackendChoice.ofWord? (word : String) : Option BackendChoice :=
  if word = "document" then some .document
  else if word = "relational" then some .relational
  else none

/-- What the program is asked to do.  Conditions and values are JSON texts. -/
inductive Command where
  /-- Drops the records of one model, or of every model. -/
  | sync (schema : Option String)
  /-- Imports a fixture file. -/
  | dump (schema fixture : String)
  /-- Prints the records a condition finds. -/
  | select (schema : String) (condition : Option String) (columns extend : Option (List String))
  /-- Creates a record, or changes those a condition finds. -/
  | save (schema values : String) (condition : Option String) (mode : String)
  /-- Counts the records a condition finds. -/
  | count (schema : String) (condition : Option String)
  /-- Prints the greatest value of a field. -/
  | max (schema field : String) (condition : Option String)
  /-- Deletes the records a condition finds. -/
  | remove (schema : String) (condition : Option String)
  /-- Prepares the store as configured. -/
  | bootstrap
deriving DecidableEq, Repr, Inhabited

/-- A whole command line. -/
structure Invocation where
  /-- The configuration file without its ending. -/
  config : String
  /-- Whether the environment chooses among configuration files. -/
  withEnv : Bool
  /-- The file that defines the models. -/
  models : String
  backend : BackendChoice
  command : Command
deriving DecidableEq, Repr, Inhabited

/-- An argument of one word, whatever it is. -/
def textSlot (name : String) : Slot := ⟨name, .one, false, fun _ => true⟩

/-- An argument of one word that names a file. -/
def pathSlot (name : String) : Slot := ⟨name, .one, false, fun word => word ≠ ""⟩

/-- A switch that has no letter. -/
def long (slot : Slot) : Switch := ⟨slot, none⟩

/-- A place that has to be filled. -/
def required (slot : Slot) : Place := ⟨slot, true⟩

def conditionSwitch : Switch := long (textSlot "condition")
def schemaPlace : Place := required (textSlot "schema")

/-- The grammar of each command, by its word. -/
def commandGrammars : List (String × Grammar) :=
  [("sync", ⟨[], [⟨textSlot "schema", false⟩], []⟩),
    ("dump", ⟨[], [schemaPlace, required (pathSlot "fixture")], []⟩),
    ("select", ⟨[conditionSwitch, long ⟨"columns", .one, true, fun _ => true⟩,
      long ⟨"extend", .any, true, fun _ => true⟩], [schemaPlace], []⟩),
    ("save", ⟨[conditionSwitch, long (textSlot "mode")],
      [schemaPlace, required (textSlot "values")], []⟩),
    ("count", ⟨[conditionSwitch], [schemaPlace], []⟩),
    ("max", ⟨[conditionSwitch], [schemaPlace, required (textSlot "field")], []⟩),
    ("remove", ⟨[conditionSwitch], [schemaPlace], []⟩),
    ("bootstrap", ⟨[], [], []⟩)]

/-- The grammar of what stands before the command. -/
def programGrammar : Grammar :=
  ⟨[⟨pathSlot "config", some 'c'⟩, long ⟨"with-env", .none, false, fun _ => true⟩,
      ⟨pathSlot "models", some 'm'⟩,
      ⟨⟨"backend", .one, false, fun word => (BackendChoice.ofWord? word).isSome⟩, some 'b'⟩],
    [], commandGrammars.map Prod.fst ++ ["help"]⟩

/-- The grammar of a command. -/
def grammarOf? (word : String) : Option Grammar :=
  (commandGrammars.find? fun entry => entry.1 == word).map Prod.snd

/-- The command that a word and its arguments give. -/
def Command.ofFound? (word : String) (found : Found) : Option Command :=
  let schema := (found.word? "schema").getD ""
  let condition := found.word? "condition"
  match word with
  | "sync" => some (.sync (found.word? "schema"))
  | "dump" => some (.dump schema ((found.word? "fixture").getD ""))
  | "select" => some (.select schema condition (found.get? "columns") (found.get? "extend"))
  | "save" => some (.save schema ((found.word? "values").getD "") condition
      ((found.word? "mode").getD "cover"))
  | "count" => some (.count schema condition)
  | "max" => some (.max schema ((found.word? "field").getD "") condition)
  | "remove" => some (.remove schema condition)
  | "bootstrap" => some .bootstrap
  | _ => none

/-- The words after `help` name one command at most. -/
def helpHalt : List String → Halt
  | [] => .help
  | [word] => if programGrammar.commands.contains word then .help else .misuse
  | _ => .misuse

/-- The command of a word and the words after it. -/
def Command.parse (word : String) (words : List String) : Except Halt Command :=
  match grammarOf? word with
  | none => .error (helpHalt words)
  | some grammar =>
    match grammar.read words with
    | .error halt => .error halt
    | .ok found =>
      match Command.ofFound? word found with
      | some command => .ok command
      | none => .error .misuse

/-- An invocation from what stood before the command. -/
def Invocation.ofFound (found : Found) (command : Command) : Invocation :=
  ⟨(found.word? "config").getD "config/pathstore", (found.get? "with-env").isSome,
    (found.word? "models").getD "config/models.json",
    ((found.word? "backend").bind BackendChoice.ofWord?).getD .document, command⟩

/-- The invocation that words give. -/
def Invocation.parse (words : List String) : Except Halt Invocation :=
  match programGrammar.readWords words (Reading.start programGrammar) with
  | .error halt => .error halt
  | .ok (_, none) => .error .misuse
  | .ok (reading, some (word, rest)) =>
    match Command.parse word rest with
    | .error halt => .error halt
    | .ok command => reading.finish.map fun found => Invocation.ofFound found command

end RecordStore.CommandLine
