import GoalScript.Goal.Library
import GoalScript.Pool.Desk
import GoalScript.Run.Event

namespace GoalScript

inductive PoolError where
  | closed
  | unknownApp (name : String) (suggestion : Option String)
deriving Repr, Inhabited, DecidableEq

def PoolError.message : PoolError → String
  | .closed => "engine pool is closed"
  | .unknownApp name suggestion =>
    "no engine pool for app '" ++ name ++ "'" ++ Suggestion.text suggestion

instance : Reusable Engine where
  ready := Engine.reset

structure AppPool where
  app : App
  shared : Shared
  base : Handle
  desk : Desk Engine
  openedAt : Nat
deriving Inhabited

namespace AppPool

def freshEngine (a : AppPool) (id : Nat) : Engine := .start id a.base a.app.config.buildMode

/-- Milliseconds between two looks for idle engines, a second at least. -/
def period (a : AppPool) : Nat := 1000 * max 1 a.desk.pool.config.evictionInterval

/-- The last moment in a stretch of time at which idle engines are looked for. -/
def lastLook? (a : AppPool) (start stop : Nat) : Option Nat :=
  let rounds := (stop - a.openedAt) / a.period
  let moment := a.openedAt + rounds * a.period
  if 0 < rounds && start < moment then some moment else none

def modifyPool (a : AppPool) (f : Pool Engine → Pool Engine) : AppPool :=
  { a with desk := { a.desk with pool := f a.desk.pool } }

def evict (a : AppPool) (now : Nat) : AppPool := a.modifyPool fun p => (p.evict now).2

/-- Where an engine rented from the pool runs: on its host, with what its app shares. -/
def world (a : AppPool) (engine : Engine) (host : Host) : World :=
  { engine, host := { host with shared := a.shared } }

end AppPool

/-- A pool that has been replaced is closed, but engines rented from it still come back to it. -/
structure Service where
  config : Config
  registry : Handle
  pools : List AppPool := []
  current : Table Nat := []
  isShutDown : Bool := false
deriving Inhabited

namespace Service

def modifyPool (s : Service) (place : Nat) (f : AppPool → AppPool) : Service :=
  { s with pools := s.pools.modify place f }

def closePool (s : Service) (place : Nat) : Service :=
  s.modifyPool place fun a => a.modifyPool Pool.close

/-- Opens a pool for an app in place of any former one. -/
def addApp (s : Service) (name : String) (library : Library) (settings : Settings) (now : Nat) :
    Service :=
  let key := Text.lowercase name
  let s := match s.current.get? key with
    | some place => s.closePool place
    | none => s
  let opened : AppPool := {
    app := { library, config := s.config.engine }
    shared := { settings }
    base := s.registry
    desk := .start s.config.pool
    openedAt := now }
  let warm := opened.modifyPool fun p =>
    (p.prewarm opened.freshEngine now s.config.pool.prewarm).2
  { s with
    pools := s.pools ++ [warm]
    current := s.current.insert key s.pools.length }

def find (s : Service) (name : String) : Except PoolError Nat :=
  match s.current.get? (Text.lowercase name) with
  | some place => .ok place
  | none => .error (.unknownApp name (Suggestion.nearest? name s.current.keys))

def apps (s : Service) : List String := s.current.keys

def shutDown (s : Service) : Service :=
  { s.current.foldl (fun s entry => s.closePool entry.2) s with isShutDown := true }

/-- Lets time pass step by step: idle engines are looked for whenever it is due. -/
def pass (s : Service) (start stop : Nat) : Service :=
  if s.isShutDown then s
  else { s with pools := s.pools.map fun a =>
    match a.lastLook? start stop with
    | some moment => a.evict moment
    | none => a }

/-- Lets time pass at once: looks that were due on the way happen at its end. -/
def leap (s : Service) (start stop : Nat) : Service :=
  if s.isShutDown then s
  else { s with pools := s.pools.map fun a =>
    match a.lastLook? start stop with
    | some _ => a.evict stop
    | none => a }

end Service

end GoalScript
