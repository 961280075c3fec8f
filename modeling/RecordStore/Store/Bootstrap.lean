/-
Module: RecordStore.Store.Bootstrap
Purpose: Preparing a store at startup: the chosen models are dropped, then the fixture
  files are imported.
Main exports: Backend.prepare, BootstrapReport, BootstrapError
-/
import RecordStore.Store.Engine
import RecordStore.Config.Basic

namespace RecordStore

/-- The models that were dropped, and the number of records imported into each model. -/
structure BootstrapReport where
  synced : List String
  imported : List (String × Nat)
deriving DecidableEq, Repr, Inhabited

/-- The number of imported records. -/
def BootstrapReport.total (report : BootstrapReport) : Nat :=
  report.imported.foldl (fun sum entry => sum + entry.2) 0

/-- Why a preparation fails. -/
inductive BootstrapError where
  | unknownSchema (name : String)
  | store (error : StoreError)
deriving DecidableEq, Repr

/-- The message of a preparation error. -/
def BootstrapError.message : BootstrapError → String
  | .unknownSchema name => "Invalid input: cannot sync unknown schema '" ++ name ++ "'"
  | .store error => "Adapter error: " ++ error.message

namespace Backend

/-- Drops the records of each of several models. -/
def syncEach (backend : Backend δ) : List String → Action δ Unit
  | [] => pure ()
  | name :: rest => do
    backend.sync name
    syncEach backend rest

/-- Imports each of several fixture files and answers how many records each held. -/
def dumpEach (backend : Backend δ) : List (String × String) → Action δ (List (String × Nat))
  | [] => return []
  | (schema, path) :: rest => do
    let inserted ← backend.dump schema path
    let more ← dumpEach backend rest
    return (schema, inserted) :: more

/-- The models a policy names, or the first name that is no model. -/
def syncTargets (registry : Registry) : SyncPolicy → Except String (List String)
  | .off => .ok []
  | .all => .ok registry.names
  | .named names =>
    match names.find? fun name => !registry.contains name with
    | some name => .error name
    | none => .ok names

/-- Prepares a store as configured; an unknown model to drop stops it before anything is
changed. -/
def prepare (backend : Backend δ) (config : BootstrapConfig) :
    Action δ (Except BootstrapError BootstrapReport) := do
  backend.connect
  match syncTargets (← read).registry config.sync with
  | .error name => return .error (.unknownSchema name)
  | .ok targets =>
    backend.syncEach targets
    let imported ← backend.dumpEach config.inits
    return .ok ⟨targets, imported⟩

end Backend

end RecordStore
