import GoalScript.Config.Basic

namespace GoalScript

/-- The wording of a failure to load is not part of its JSON form. -/
def ConfigError.toJson : ConfigError → Json
  | .load => .object [("error", .text "Load")]
  | .invalid reason =>
    .object [("error", .text "Invalid"), ("message", .text (ConfigError.invalid reason).message)]

def Json.asWord64 : Json → Option Nat := Json.asNat Number.word64

namespace EngineConfig

def ofJson? (json : Json) : Option EngineConfig := do
  let f ← Json.fields? ["step_timeout_ms", "event_delay_ms", "build_mode", "max_call_depth"] json
  let usual : EngineConfig := {}
  return {
    stepTimeout := ← f.defaulted "step_timeout_ms" usual.stepTimeout Json.asWord64
    eventDelay := ← f.defaulted "event_delay_ms" usual.eventDelay Json.asWord64
    buildMode := ← f.defaulted "build_mode" usual.buildMode Json.asBool
    maxCallDepth := ← f.defaulted "max_call_depth" usual.maxCallDepth Json.asWord64 }

def toJson (c : EngineConfig) : Json :=
  .object [("step_timeout_ms", .ofNat c.stepTimeout), ("event_delay_ms", .ofNat c.eventDelay),
    ("build_mode", .bool c.buildMode), ("max_call_depth", .ofNat c.maxCallDepth)]

end EngineConfig

namespace PoolConfig

def ofJson? (json : Json) : Option PoolConfig := do
  let f ← Json.fields? ["min_size", "max_size", "idle_timeout_secs", "eviction_interval_secs",
    "prewarm"] json
  let usual : PoolConfig := {}
  return {
    minSize := ← f.defaulted "min_size" usual.minSize Json.asWord64
    maxSize := ← f.defaulted "max_size" usual.maxSize Json.asWord64
    idleTimeout := ← f.defaulted "idle_timeout_secs" usual.idleTimeout Json.asWord64
    evictionInterval := ← f.defaulted "eviction_interval_secs" usual.evictionInterval Json.asWord64
    prewarm := ← f.defaulted "prewarm" usual.prewarm Json.asWord64 }

def toJson (c : PoolConfig) : Json :=
  .object [("min_size", .ofNat c.minSize), ("max_size", .ofNat c.maxSize),
    ("idle_timeout_secs", .ofNat c.idleTimeout),
    ("eviction_interval_secs", .ofNat c.evictionInterval), ("prewarm", .ofNat c.prewarm)]

end PoolConfig

namespace Config

def logLevelOf? (json : Json) : Option String := do
  let f ← Json.fields? ["level"] json
  f.defaulted "level" ({} : Config).logLevel Json.asText

def ofJson? (json : Json) : Option Config := do
  let f ← Json.fields? ["engine", "pool", "logging"] json
  return {
    engine := ← f.defaulted "engine" {} EngineConfig.ofJson?
    pool := ← f.defaulted "pool" {} PoolConfig.ofJson?
    logLevel := ← f.defaulted "logging" ({} : Config).logLevel logLevelOf? }

def toJson (c : Config) : Json :=
  .object [("engine", c.engine.toJson), ("pool", c.pool.toJson),
    ("logging", .object [("level", .text c.logLevel)])]

end Config

end GoalScript
