/-
Module: RecordStore.CommandLine.Run
Purpose: Running a command.  The configuration is read first, then the models, then the
  store is opened, and only then the command's own texts are read.
Main exports: Host, Invocation.run, RunError
-/
import RecordStore.CommandLine.Invocation
import RecordStore.Config.Load
import RecordStore.Document.Store
import RecordStore.Relational.Store
import RecordStore.Schema.ModelFile
import RecordStore.Storage.Disk
import RecordStore.Store.Bootstrap

namespace RecordStore.CommandLine

/-- What a command runs in: the disk, the variables of the environment, the readings of the
clock and the generated keys. -/
structure Host where
  disk : Disk
  environment : String → Option String
  clock : Nat → Instant
  keys : Nat → String

/-- Why a command fails. -/
inductive RunError where
  | config (error : ConfigError)
  | noModels (path : String)
  | schema (error : SchemaError)
  | noStore (path : String)
  | notJson (text : String)
  | conditionNotObject
  | valuesNotObject
  | bootstrap (error : BootstrapError)
  | store (error : StoreError)
deriving DecidableEq, Repr

/-- The message of a failure. -/
def RunError.message : RunError → String
  | .config error => "Configuration error: " ++ error.message
  | .noModels path => "IO error: cannot read " ++ path
  | .schema error => "Schema error: " ++ error.message
  | .noStore path => "Adapter error: cannot open " ++ path
  | .notJson text => "JSON error: cannot read " ++ text
  | .conditionNotObject => "Invalid input: a condition must be a JSON object"
  | .valuesNotObject => "Invalid input: values must be a JSON object"
  | .bootstrap error => error.message
  | .store error => "Adapter error: " ++ error.message

/-- The condition of a text. -/
def readCondition : Option String → Except RunError (Option Condition)
  | none => .ok none
  | some text =>
    match Json.parse? text with
    | none => .error (.notJson text)
    | some (.obj members) => .ok (some members)
    | some _ => .error .conditionNotObject

/-- The record or patch of a text. -/
def readValues (text : String) : Except RunError Object :=
  match Json.parse? text with
  | none => .error (.notJson text)
  | some (.obj members) => .ok members
  | some _ => .error .valuesNotObject

/-- The relations that are resolved: none unless asked for, all unless some are named. -/
def extendOf : Option (List String) → Extend
  | none => .none
  | some [] => .all
  | some fields => .fields fields

/-- An object with one member. -/
def single (key : String) (value : Json) : Json := .obj [(key, value)]

/-- A count as a JSON value. -/
def countValue (n : Nat) : Json := .int n

/-- Names as a JSON value. -/
def namesValue (names : List String) : Json := .arr (names.map .str)

/-- What is printed of a read. -/
def selectionValue : Selection → Json
  | .one record => Json.ofOption (record.map .obj)
  | .many records => .arr (records.map .obj)

/-- What is printed of a save. -/
def outcomeValue : SaveOutcome → Json
  | .created record => single "created" (.obj record)
  | .updated record => single "updated" (.obj record)
  | .batch updated failed =>
    .obj [("updated", .arr (updated.map .obj)), ("failed", .arr (failed.map Prod.fst))]

/-- What is printed of a preparation. -/
def reportValue (report : BootstrapReport) : Json :=
  .obj [("synced", namesValue report.synced),
    ("imported", .arr (report.imported.map fun entry => .arr [.str entry.1, countValue entry.2]))]

/-- A command's texts read, then an operation run with them. -/
def andThen (read : Except RunError α) (operation : α → Action δ Json) :
    Action δ (Except RunError Json) :=
  match read with
  | .error error => return .error error
  | .ok value => do return .ok (← operation value)

/-- Runs a command against a store that is open, and answers what is printed. -/
def Command.perform (backend : Backend δ) (bootstrap : BootstrapConfig) :
    Command → Action δ (Except RunError Json)
  | .sync schema => do
    let registry := (← read).registry
    let targets := match schema with
      | some name => [name]
      | none => registry.names
    backend.syncEach targets
    return .ok (single "synced" (namesValue targets))
  | .dump schema fixture => do
    return .ok (single "inserted" (countValue (← backend.dump schema fixture)))
  | .select schema condition columns extend =>
    andThen (readCondition condition) fun condition => do
      return selectionValue (← backend.select schema condition ⟨columns, extendOf extend⟩)
  | .save schema values condition mode =>
    andThen (do return (← readValues values, ← readCondition condition)) fun given => do
      return outcomeValue
        (← backend.save schema given.1 given.2 ⟨UpdateMode.ofWord mode, .skip⟩)
  | .count schema condition =>
    andThen (readCondition condition) fun condition => do
      return single "count" (countValue (← backend.tally schema condition))
  | .max schema field condition =>
    andThen (readCondition condition) fun condition => do
      return single "max" (← backend.maximum schema field condition)
  | .remove schema condition =>
    andThen (readCondition condition) fun condition => do
      return single "removed" (countValue (← backend.remove schema condition))
  | .bootstrap => do
    match ← backend.prepare bootstrap with
    | .error error => return .error (.bootstrap error)
    | .ok report => return .ok (reportValue report)

/-- Opens a store, runs a command, and answers what is printed and the data that are left. -/
def Command.runOn (backend : Backend δ) (bootstrap : BootstrapConfig) (setting : Setting)
    (data : δ) (command : Command) : Except RunError Json × δ :=
  let action : Action δ (Except RunError Json) := do
    backend.connect
    command.perform backend bootstrap
  let (answer, session) := action.perform setting (Session.start data)
  match answer with
  | .error error => (.error (.store error), session.data)
  | .ok printed => (printed, session.data)

namespace Invocation

/-- The configuration of an invocation, the standard one if there is no file. -/
def loadConfig (files environment : String → Option String) (invocation : Invocation) :
    Except RunError EngineConfig :=
  match EngineConfig.load files environment invocation.config invocation.withEnv with
  | .ok config => .ok config
  | .error (.notFound _) =>
    match EngineConfig.standard.settle environment with
    | .ok config => .ok config
    | .error error => .error (.config error)
  | .error error => .error (.config error)

/-- The models of an invocation. -/
def loadModels (files : String → Option String) (invocation : Invocation) :
    Except RunError Registry :=
  match files invocation.models with
  | none => .error (.noModels invocation.models)
  | some text =>
    match ModelFile.parse? text with
    | none => .error (.notJson text)
    | some definitions =>
      match Registry.build definitions with
      | .error error => .error (.schema error)
      | .ok registry => .ok registry

/-- The files an invocation may read once it is configured. -/
def sources (config : EngineConfig) (invocation : Invocation) : List String :=
  invocation.models ::
    match invocation.command with
    | .dump _ fixture => [fixture]
    | .bootstrap => config.bootstrap.inits.map Prod.snd
    | _ => []

/-- Runs a command on the document store. -/
def runDocument (host : Host) (config : EngineConfig) (setting : Setting)
    (invocation : Invocation) : Except RunError Json × Disk :=
  let disk := host.disk
  let path := config.document.path
  if config.document.temporary then
    ((invocation.command.runOn Document.backend config.bootstrap setting []).1, disk)
  else if disk.admitsDocuments path then
    let ran := invocation.command.runOn Document.backend config.bootstrap setting
      (disk.documents path)
    (ran.1, disk.keepDocuments path ran.2)
  else (.error (.noStore path), disk)

/-- Runs a command on the relational store. -/
def runRelational (host : Host) (config : EngineConfig) (setting : Setting)
    (invocation : Invocation) : Except RunError Json × Disk :=
  let disk := host.disk
  let path := config.relational.path
  if path = inMemoryPath then
    ((invocation.command.runOn Relational.backend config.bootstrap setting
      (Relational.Connection.start false)).1, disk)
  else if disk.admitsDatabase path then
    let ran := invocation.command.runOn Relational.backend config.bootstrap setting
      ⟨disk.database path, false, true⟩
    (ran.1, disk.keepDatabase path ran.2.database)
  else (.error (.noStore path), disk)

/-- Runs an invocation and answers what is printed and the disk that is left. -/
def run (host : Host) (invocation : Invocation) : Except RunError Json × Disk :=
  let disk := host.disk
  match invocation.loadConfig disk.text? host.environment with
  | .error error => (.error error, disk)
  | .ok config =>
    match invocation.loadModels disk.text? with
    | .error error => (.error error, disk)
    | .ok registry =>
      let setting : Setting := ⟨registry, host.clock, host.keys, disk.text?⟩
      match invocation.backend with
      | .document => invocation.runDocument host config setting
      | .relational => invocation.runRelational host config setting

end Invocation

/-- The end of a run: the exit code, and the value that is printed if any. -/
structure Exit where
  code : Nat
  printed : Option Json
deriving Repr, Inhabited

/-- The exit of a run that asks for help or is wrong. -/
def Halt.exit : Halt → Exit
  | .help => ⟨0, none⟩
  | .version => ⟨0, none⟩
  | .misuse => ⟨2, none⟩

/-- Runs a command line. -/
def runWords (host : Host) (words : List String) : Exit × Disk :=
  match Invocation.parse words with
  | .error halt => (halt.exit, host.disk)
  | .ok invocation =>
    match invocation.run host with
    | (.error _, disk) => (⟨1, none⟩, disk)
    | (.ok printed, disk) => (⟨0, some printed⟩, disk)

end RecordStore.CommandLine
