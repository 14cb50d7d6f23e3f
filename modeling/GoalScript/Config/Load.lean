import GoalScript.Config.Layer
import GoalScript.Config.VariableFile
import GoalScript.Files
import GoalScript.Toml.Reader

namespace GoalScript

structure ConfigRequest where
  path : Option String := none
  environment : Option (Table String) := none
  stepTimeout : Option Nat := none
  buildMode : Option Bool := none
  maxPoolSize : Option Nat := none
  logLevel : Option String := none
deriving Repr, Inhabited

namespace ConfigRequest

/-- Numbers beyond the signed ones of 64 bits turn negative. -/
def wrapped (n : Nat) : Json := .int (Int.bmod n Number.word64)

def overrides (r : ConfigRequest) : List (String × Json) :=
  (r.stepTimeout.map fun n => ("engine.step_timeout_ms", wrapped n)).toList ++
    (r.buildMode.map fun b => ("engine.build_mode", .bool b)).toList ++
    (r.maxPoolSize.map fun n => ("pool.max_size", wrapped n)).toList ++
    (r.logLevel.map fun s => ("logging.level", .text s)).toList

end ConfigRequest

def variablesFile : String := ".env"

def pathVariable : String := "STEPWISE_CONFIG_PATH"

def defaultConfigFile : String := "stepwise.toml"

section

variable {m : Type → Type} [Monad m] (readFile : FileReader m)

/-- The text of a configuration file, whose extension may be left out of the path. -/
def findConfigFile (path : String) : m (Option String) := do
  match ← readFile path with
  | .ok text => return some text
  | .error _ => return (← readFile (path ++ ".toml")).toOption

def fileLayer (path : String) (isRequired : Bool) : m (Option (List (String × Json))) := do
  match ← findConfigFile readFile path with
  | none => return if isRequired then none else some []
  | some text => return (Toml.read .text text.toList).map Layer.membersOf

def ConfigRequest.allVariables (r : ConfigRequest) : m (Table String) := do
  match r.environment with
  | none => return []
  | some environment =>
    match ← readFile variablesFile with
    | .ok text => return VariableFile.apply environment text
    | .error _ => return environment

/-- Usual values, a file, environment variables and what the caller asks for, each over those
before. -/
def Config.ofSources (file environment overrides : List (String × Json)) :
    Except ConfigError Config :=
  match ofLayers? ([file, environment, overrides].foldl Layer.apply (.object [])) with
  | some config => config.validate
  | none => .error .load

def Config.load (r : ConfigRequest) : m (Except ConfigError Config) := do
  let environment ← r.allVariables readFile
  let explicit := r.path.or (environment.get? pathVariable)
  match ← fileLayer readFile (explicit.getD defaultConfigFile) explicit.isSome with
  | none => return .error .load
  | some file => return ofSources file (Layer.ofVariables environment) r.overrides

end

end GoalScript
