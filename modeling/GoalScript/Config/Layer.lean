import GoalScript.Config.Basic
import GoalScript.Config.Path
import GoalScript.Json.Record
import GoalScript.Number.Layout

namespace GoalScript

namespace Layer

/-- A layer over those before it. The keys of its root may be paths. -/
def apply (root : Json) (layer : List (String × Json)) : Json :=
  layer.foldl (fun root entry => putAt root entry.2 (PathPart.ofKey entry.1)) root

def variablesStart : List Char := "stepwise__".toList

/-- A variable's key, in lower case; two underscores stand between the parts of a path. -/
def keyOfVariable? (name : String) : Option String :=
  let name := Text.lower name.toList
  if variablesStart.isPrefixOf name then
    some (".".intercalate ((String.ofList (name.drop variablesStart.length)).splitOn "__"))
  else none

def valueOfText (text : String) : Json :=
  let s := text.toList
  let lower := Text.lowercase text
  if lower == "true" then .bool true
  else if lower == "false" then .bool false
  else match (Number.readInt s).filter Number.isSigned64 with
    | some i => .int i
    | none => ((Number.read s).map Json.float).getD (.text text)

def ofVariables (environment : Table String) : List (String × Json) :=
  environment.filterMap fun entry =>
    (keyOfVariable? entry.1).map fun key => (key, valueOfText entry.2)

def fieldsOf? (names : List String) : Json → Option Json.Fields
  | .object members => some members
  | .array items => some (names.zip items)
  | _ => none

def isYes (s : String) : Bool := s == "true" || s == "on" || s == "yes"

def isNo (s : String) : Bool := s == "false" || s == "off" || s == "no"

def readNat (s : String) : Option Nat :=
  let digits := match s.toList with
    | '+' :: rest => rest
    | digits => digits
  (Number.readNat digits).filter (· < Number.word64)

def asNat : Json → Option Nat
  | .int i => if 0 ≤ i then some i.toNat else none
  | .bool b => some b.toNat
  | .float x => some (Number.clampedNat Number.max64 (Number.round x))
  | .text s =>
    let word := Text.lowercase s
    if isYes word then some 1 else if isNo word then some 0 else readNat s
  | _ => none

def asBool : Json → Option Bool
  | .bool b => some b
  | .int i => some (i != 0)
  | .float x => some (x != 0.0)
  | .text s =>
    let word := Text.lowercase s
    if word == "1" || isYes word then some true
    else if word == "0" || isNo word then some false
    else none
  | _ => none

def asText : Json → Option String
  | .text s => some s
  | .bool b => some (if b then "true" else "false")
  | .int i => some (toString i)
  | .float x => some (Number.plainText x)
  | _ => none

end Layer

namespace EngineConfig

def ofLayers? (json : Json) : Option EngineConfig := do
  let f ← Layer.fieldsOf? ["step_timeout_ms", "event_delay_ms", "build_mode", "max_call_depth"] json
  let usual : EngineConfig := {}
  return {
    stepTimeout := ← f.defaulted "step_timeout_ms" usual.stepTimeout Layer.asNat
    eventDelay := ← f.defaulted "event_delay_ms" usual.eventDelay Layer.asNat
    buildMode := ← f.defaulted "build_mode" usual.buildMode Layer.asBool
    maxCallDepth := ← f.defaulted "max_call_depth" usual.maxCallDepth Layer.asNat }

end EngineConfig

namespace PoolConfig

def ofLayers? (json : Json) : Option PoolConfig := do
  let f ← Layer.fieldsOf? ["min_size", "max_size", "idle_timeout_secs", "eviction_interval_secs",
    "prewarm"] json
  let usual : PoolConfig := {}
  return {
    minSize := ← f.defaulted "min_size" usual.minSize Layer.asNat
    maxSize := ← f.defaulted "max_size" usual.maxSize Layer.asNat
    idleTimeout := ← f.defaulted "idle_timeout_secs" usual.idleTimeout Layer.asNat
    evictionInterval := ← f.defaulted "eviction_interval_secs" usual.evictionInterval Layer.asNat
    prewarm := ← f.defaulted "prewarm" usual.prewarm Layer.asNat }

end PoolConfig

namespace Config

def logLevelOfLayers? (json : Json) : Option String := do
  let f ← Layer.fieldsOf? ["level"] json
  f.defaulted "level" ({} : Config).logLevel Layer.asText

def ofLayers? (json : Json) : Option Config := do
  let f ← Layer.fieldsOf? ["engine", "pool", "logging"] json
  return {
    engine := ← f.defaulted "engine" {} EngineConfig.ofLayers?
    pool := ← f.defaulted "pool" {} PoolConfig.ofLayers?
    logLevel := ← f.defaulted "logging" ({} : Config).logLevel logLevelOfLayers? }

end Config

end GoalScript
