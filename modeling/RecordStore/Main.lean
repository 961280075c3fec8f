/-
Module: RecordStore.Main
Purpose: The program: reads the files that a command line names, runs it, and writes back
  the store it changed.
Main exports: main
-/
import RecordStore.CommandLine.Run
import RecordStore.Storage.Snapshot
import Std.Time.DateTime.Timestamp

namespace RecordStore.CommandLine

/-- The words for a usage error and for help. -/
def usage : String :=
  "Usage: recordstore [-c CONFIG] [--with-env] [-m MODELS] [-b document|relational] COMMAND\n" ++
  "Commands:\n" ++
  "  sync [SCHEMA]\n" ++
  "  dump SCHEMA FIXTURE\n" ++
  "  select SCHEMA [--condition JSON] [--columns NAMES] [--extend [NAMES]]\n" ++
  "  save SCHEMA VALUES [--condition JSON] [--mode MODE]\n" ++
  "  count SCHEMA [--condition JSON]\n" ++
  "  max SCHEMA FIELD [--condition JSON]\n" ++
  "  remove SCHEMA [--condition JSON]\n" ++
  "  bootstrap\n"

/-- The text of a file, if it can be read. -/
def readText? (path : String) : IO (Option String) := do
  try return some (← IO.FS.readFile path) catch _ => return none

/-- The files among several paths that can be read, with their texts. -/
def readTexts (paths : List String) : IO (List (String × String)) := do
  let read ← paths.mapM fun path => do return (path, ← readText? path)
  return read.filterMap fun file => file.2.map fun text => (file.1, text)

/-- The variables a run looks at. -/
def variableNames : List String :=
  ["ENV", "PATHSTORE_DOCUMENT_PATH", "PATHSTORE_RELATIONAL_PATH"]

/-- Their values. -/
def readVariables : IO (List (String × String)) := do
  let read ← variableNames.mapM fun name => do return (name, ← IO.getEnv name)
  return read.filterMap fun setting => setting.2.map fun value => (setting.1, value)

/-- The present moment. -/
def presentInstant : IO Instant := do
  let nanos := (← Std.Time.Timestamp.now).toNanosecondsSinceUnixEpoch.val
  return ⟨nanos / nanosInSecond, (nanos % nanosInSecond).toNat⟩

/-- A number of 128 random bits. -/
def randomNumber : IO Nat := do
  return (← IO.getRandomBytes 16).foldl (fun n byte => n * 256 + byte.toNat) 0

/-- A key of 32 hexadecimal digits. -/
def keyText (n : Nat) : String :=
  let digits := Nat.toDigits 16 (n % Nat.pow 2 128)
  String.ofList (List.replicate (32 - digits.length) '0' ++ digits)

/-- The file in the folder of a document store that holds its records. -/
def documentFile (path : String) : String := path ++ "/records.json"

/-- The folder of a file. -/
def folderOf (path : String) : String :=
  String.ofList ((path.toList.reverse.dropWhile (· != '/')).drop 1).reverse

/-- Writes a file, making its folder first. -/
def writeText (path text : String) : IO Unit := do
  if folderOf path ≠ "" then IO.FS.createDirAll (folderOf path)
  IO.FS.writeFile path text

/-- The disk a configured invocation runs on.  What stands at the path of the database and
is none is a file like any other. -/
def readDisk (config : EngineConfig) (invocation : Invocation)
    (configFiles : List (String × String)) : IO Disk := do
  let place := config.relational.path
  let texts ← readTexts (place :: invocation.sources config)
  let database := (texts.find? fun file => file.1 == place).bind fun file =>
    Database.ofSnapshot? file.2
  let texts := if database.isSome then texts.filter fun file => file.1 != place else texts
  let disk := Disk.ofFiles (configFiles ++ texts)
  let disk := match database with
    | some database => disk.keepDatabase place database
    | none => disk
  let documents ← readText? (documentFile config.document.path)
  return match documents.bind Document.Trees.ofSnapshot? with
    | some trees => disk.keepDocuments config.document.path trees
    | none => disk

/-- Writes back the stores that are kept. -/
def writeDisk (disk : Disk) : IO Unit := do
  for (path, trees) in disk.documentStores do
    writeText (documentFile path) trees.snapshot
  for (path, database) in disk.databases do
    writeText path database.snapshot

/-- Reports a failure. -/
def reportFailure (error : RunError) : IO UInt32 := do
  IO.eprintln ("Error: " ++ error.message)
  return 1

/-- Runs an invocation. -/
def runInvocation (invocation : Invocation) : IO UInt32 := do
  let settings ← readVariables
  let environment (name : String) : Option String :=
    (settings.find? fun setting => setting.1 == name).map Prod.snd
  let configFiles ← readTexts
    [configPath invocation.config invocation.withEnv (environment environmentVariable)]
  match invocation.loadConfig (Disk.ofFiles configFiles).text? environment with
  | .error error => reportFailure error
  | .ok config => do
    let disk ← readDisk config invocation configFiles
    let start ← presentInstant
    let seed ← randomNumber
    let host : Host := ⟨disk, environment, fun n => ⟨start.seconds, start.nanos + n⟩,
      fun n => keyText (seed + n)⟩
    let (answer, after) := invocation.run host
    writeDisk after
    match answer with
    | .error error => reportFailure error
    | .ok printed =>
      IO.println printed.indented
      return 0

end RecordStore.CommandLine

open RecordStore.CommandLine in
/-- Runs the words of the command line. -/
def main (words : List String) : IO UInt32 := do
  match Invocation.parse words with
  | .ok invocation => runInvocation invocation
  | .error .help =>
    IO.print usage
    return 0
  | .error .version =>
    IO.println "recordstore 0.1.0"
    return 0
  | .error .misuse =>
    IO.eprint usage
    return 2
