/-
Module: RecordStore.Config.Basic
Purpose: The configuration of the stores and of the preparation at startup, its decoding
  from a tree of settings, the overrides of the environment, and validation.
Main exports: SyncPolicy, BootstrapConfig, EngineConfig, EngineConfig.decode?,
  EngineConfig.override, EngineConfig.validate, ConfigError, configPath
-/
import RecordStore.Json.Basic
import RecordStore.Text.Blank

namespace RecordStore

/-- The models whose records are dropped at startup. -/
inductive SyncPolicy where
  | off
  | all
  | named (names : List String)
deriving DecidableEq, Repr, Inhabited

/-- What is done at startup: models are dropped, then a fixture file is imported into each
of several models, in the order of their names. -/
structure BootstrapConfig where
  sync : SyncPolicy
  inits : List (String × String)
deriving DecidableEq, Repr, Inhabited

/-- The settings of the document store. -/
structure DocumentConfig where
  path : String
  /-- Nothing is kept when the store is closed. -/
  temporary : Bool
  /-- The pause between flushes in milliseconds. -/
  flushEvery : Option Nat
deriving DecidableEq, Repr, Inhabited

/-- The settings of the relational store. -/
structure RelationalConfig where
  path : String
deriving DecidableEq, Repr, Inhabited

/-- The path of a database that is kept in memory. -/
def inMemoryPath : String := ":memory:"

/-- The whole configuration. -/
structure EngineConfig where
  document : DocumentConfig
  relational : RelationalConfig
  bootstrap : BootstrapConfig
deriving DecidableEq, Repr, Inhabited

/-- The configuration of which nothing is set. -/
def DocumentConfig.standard : DocumentConfig := ⟨"data/documents", false, none⟩
def RelationalConfig.standard : RelationalConfig := ⟨"data/pathstore.sqlite3"⟩
def BootstrapConfig.standard : BootstrapConfig := ⟨.off, []⟩
def EngineConfig.standard : EngineConfig :=
  ⟨DocumentConfig.standard, RelationalConfig.standard, BootstrapConfig.standard⟩

/-- The settings of a group by position: those of a table by name, those of a list in
order.  A list may be `open` to further elements, which do not count. -/
def settings? (openList : Bool) (names : List String) : Json → Option (List (Option Json))
  | .obj members => some (names.map (Object.get? members))
  | .arr items =>
    if openList || items.length ≤ names.length then some ((List.range names.length).map (items[·]?))
    else none
  | _ => none

/-- A setting that keeps its standard value if it is absent. -/
def setting? (standard : α) (decode : Json → Option α) : Option Json → Option α
  | none => some standard
  | some raw => decode raw

/-- A count of at most 64 bits. -/
def count? : Json → Option Nat
  | .num n => n.nat?
  | _ => none

namespace SyncPolicy

/-- A flag, or a list of names. -/
def decode? : Json → Option SyncPolicy
  | .bool true => some .all
  | .bool false => some .off
  | .arr items => (items.mapM Json.str?).map .named
  | _ => none

/-- The setting of a policy. -/
def encode : SyncPolicy → Json
  | .off => .bool false
  | .all => .bool true
  | .named names => .arr (names.map .str)

end SyncPolicy

namespace BootstrapConfig

/-- An entry put into its place by name. -/
def insertInit (entry : String × String) : List (String × String) → List (String × String)
  | [] => [entry]
  | first :: rest =>
    if Text.compare entry.1 first.1 = .lt then entry :: first :: rest
    else first :: insertInit entry rest

/-- The fixture files by model, in the order of the names. -/
def inits? : Json → Option (List (String × String))
  | .obj members =>
    (members.mapM fun (member : String × Json) =>
      member.2.str?.map fun path => (member.1, path)).map fun entries =>
        entries.foldl (fun sorted entry => insertInit entry sorted) []
  | _ => none

/-- The preparation a group of settings asks for. -/
def decode? (openList : Bool) (raw : Json) : Option BootstrapConfig :=
  match settings? openList ["sync", "inits"] raw with
  | some [sync, inits] =>
    match setting? SyncPolicy.off SyncPolicy.decode? sync, setting? [] inits? inits with
    | some sync, some inits => some ⟨sync, inits⟩
    | _, _ => none
  | _ => none

/-- The settings of a preparation. -/
def encode (config : BootstrapConfig) : Json :=
  .obj [("sync", config.sync.encode),
    ("inits", .obj (config.inits.map fun entry => (entry.1, .str entry.2)))]

end BootstrapConfig

namespace DocumentConfig

/-- The document store a group of settings describes. -/
def decode? (raw : Json) : Option DocumentConfig :=
  match settings? true ["path", "temporary", "flush_every_ms"] raw with
  | some [path, temporary, flush] =>
    match setting? standard.path Json.str? path, setting? standard.temporary Json.bool? temporary,
      setting? none (fun raw => (count? raw).map some) flush with
    | some path, some temporary, some flush => some ⟨path, temporary, flush⟩
    | _, _, _ => none
  | _ => none

/-- The settings of a document store. -/
def encode (config : DocumentConfig) : Json :=
  .obj [("path", .str config.path), ("temporary", .bool config.temporary),
    ("flush_every_ms", Json.ofOption (config.flushEvery.map fun n => .int n))]

end DocumentConfig

namespace RelationalConfig

/-- The relational store a group of settings describes. -/
def decode? (raw : Json) : Option RelationalConfig :=
  match settings? true ["path"] raw with
  | some [path] => (setting? standard.path Json.str? path).map fun path => ⟨path⟩
  | _ => none

/-- The settings of a relational store. -/
def encode (config : RelationalConfig) : Json := .obj [("path", .str config.path)]

end RelationalConfig

/-- Why a configuration is refused. -/
inductive ConfigError where
  | notFound (path : String)
  | notReadable
  | relationalPathEmpty
  | documentPathEmpty
deriving DecidableEq, Repr

/-- The message of a configuration error. -/
def ConfigError.message : ConfigError → String
  | .notFound path => "Configuration not found: " ++ path
  | .notReadable => "TOML parsing error"
  | .relationalPathEmpty =>
    "Configuration validation error: relational.path must not be empty"
  | .documentPathEmpty =>
    "Configuration validation error: document.path must not be empty unless " ++
      "document.temporary is set"

namespace EngineConfig

/-- The configuration a tree of settings describes; unknown settings do not count. -/
def decode? (raw : Json) : Option EngineConfig :=
  match settings? true ["document", "relational", "bootstrap"] raw with
  | some [document, relational, bootstrap] =>
    match setting? DocumentConfig.standard DocumentConfig.decode? document,
      setting? RelationalConfig.standard RelationalConfig.decode? relational,
      setting? BootstrapConfig.standard (BootstrapConfig.decode? true) bootstrap with
    | some document, some relational, some bootstrap => some ⟨document, relational, bootstrap⟩
    | _, _, _ => none
  | _ => none

/-- The settings of a configuration. -/
def encode (config : EngineConfig) : Json :=
  .obj [("document", config.document.encode), ("relational", config.relational.encode),
    ("bootstrap", config.bootstrap.encode)]

/-- The configuration with the paths the environment sets. -/
def override (config : EngineConfig) (environment : String → Option String) : EngineConfig :=
  let document := match environment "PATHSTORE_DOCUMENT_PATH" with
    | some path => { config.document with path := path }
    | none => config.document
  let relational := match environment "PATHSTORE_RELATIONAL_PATH" with
    | some path => { config.relational with path := path }
    | none => config.relational
  { config with document := document, relational := relational }

/-- Refuses paths that name no place. -/
def validate (config : EngineConfig) : Except ConfigError Unit :=
  if (Text.trim config.relational.path).isEmpty then .error .relationalPathEmpty
  else if !config.document.temporary && config.document.path.isEmpty then .error .documentPathEmpty
  else .ok ()

end EngineConfig

/-- The configuration file of a base name, for an environment if one is chosen. -/
def configPath (base : String) (withEnv : Bool) (env : Option String) : String :=
  match env with
  | some env => if withEnv && env ≠ "" then base ++ "." ++ env ++ ".toml" else base ++ ".toml"
  | none => base ++ ".toml"

end RecordStore
