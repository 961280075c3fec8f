/-
Module: RecordStore.Config.Load
Purpose: Reading a configuration from a TOML file, with what the environment chooses: the
  file, and the paths of the stores.
Main exports: EngineConfig.parse, EngineConfig.load
-/
import RecordStore.Config.Basic
import RecordStore.Toml.Reader

namespace RecordStore

/-- The variable that chooses a configuration file. -/
def environmentVariable : String := "ENV"

namespace EngineConfig

/-- The configuration a text describes. -/
def parse (text : String) : Except ConfigError EngineConfig :=
  match (Toml.parse? text).bind decode? with
  | some config => .ok config
  | none => .error .notReadable

/-- The configuration with the paths of the environment, if it is valid. -/
def settle (environment : String → Option String) (config : EngineConfig) :
    Except ConfigError EngineConfig :=
  let config := config.override environment
  config.validate.map fun () => config

/-- The configuration of a base name. -/
def load (files environment : String → Option String) (base : String) (withEnv : Bool) :
    Except ConfigError EngineConfig :=
  let path := configPath base withEnv (environment environmentVariable)
  match files path with
  | none => .error (.notFound path)
  | some text =>
    match parse text with
    | .error error => .error error
    | .ok config => config.settle environment

end EngineConfig

end RecordStore
