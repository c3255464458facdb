import SearchIndex.Command.Files
import SearchIndex.Config

/-!
# Finding the configuration

The configuration of a command is the nearest file of a fixed name in the working directory or above
it. It is looked for without being opened, so a directory of that name is found, too.
-/

namespace SearchIndex.Command

/-- The name of a configuration file. -/
def configName : String := "Esmap.toml"

/-- Why a configuration cannot be had. -/
inductive ConfigError where
  | unreadable
  | malformed
deriving DecidableEq, Repr

/-- The message of an error. -/
def ConfigError.message : ConfigError → String
  | .unreadable => "IO error"
  | .malformed => "Parse error"

variable {m : Type → Type} [Monad m]

/-- Reads a configuration file. -/
def loadConfig (files : Files m) (path : String) : m (Except ConfigError Config) := do
  match ← files.read path with
  | none => return .error .unreadable
  | some text =>
    match Config.read text with
    | some config => return .ok config
    | none => return .error .malformed

/-- The path of the configuration file in the first directory that has one. -/
def findConfig (files : Files m) : List String → m (Option String)
  | [] => return none
  | directory :: rest => do
    let path := Path.join directory configName
    if ← files.isThere path then return some path else findConfig files rest

/-- Finds and reads the configuration file in the first directory that has one. -/
def searchConfig (files : Files m) (directories : List String) :
    m (Except ConfigError (Option (String × Config))) := do
  match ← findConfig files directories with
  | none => return .ok none
  | some path => return (← loadConfig files path).map fun config => some (path, config)

end SearchIndex.Command
