import GoalScript.Json.Record

namespace GoalScript

/-- Times are in milliseconds; the limit of a step is for those without one of their own. -/
structure EngineConfig where
  stepTimeout : Nat := 30000
  eventDelay : Nat := 50
  buildMode : Bool := false
  maxCallDepth : Nat := 100
deriving Repr, Inhabited, DecidableEq

/-- Times are in seconds. Engines that have not been used for `idleTimeout` may be dropped. -/
structure PoolConfig where
  minSize : Nat := 1
  maxSize : Nat := 16
  idleTimeout : Nat := 300
  evictionInterval : Nat := 60
  prewarm : Nat := 0
deriving Repr, Inhabited, DecidableEq

structure Config where
  engine : EngineConfig := {}
  pool : PoolConfig := {}
  logLevel : String := "info"
deriving Repr, Inhabited, DecidableEq

inductive ConfigError where
  | load
  | invalid (reason : String)
deriving Repr, Inhabited, DecidableEq

def ConfigError.message : ConfigError → String
  | .load => "failed to load configuration"
  | .invalid reason => "invalid configuration: " ++ reason

namespace Config

def validate (c : Config) : Except ConfigError Config :=
  if c.pool.maxSize = 0 then .error (.invalid "pool.max_size must be at least 1")
  else if c.pool.maxSize < c.pool.minSize then
    .error (.invalid ("pool.min_size (" ++ toString c.pool.minSize ++
      ") exceeds pool.max_size (" ++ toString c.pool.maxSize ++ ")"))
  else if c.engine.maxCallDepth = 0 then
    .error (.invalid "engine.max_call_depth must be at least 1")
  else if c.engine.stepTimeout = 0 then
    .error (.invalid "engine.step_timeout_ms must be positive")
  else .ok c

end Config

end GoalScript
