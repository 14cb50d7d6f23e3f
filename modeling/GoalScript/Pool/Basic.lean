import GoalScript.Config.Basic
import GoalScript.Pool.Permits

namespace GoalScript

structure Parked (ε : Type) where
  engine : ε
  since : Nat
deriving Repr, Inhabited

/-- Whoever rents an engine holds a permit until it is back; there are as many permits as the pool
may have engines. -/
structure Pool (ε : Type) where
  config : PoolConfig
  permits : Permits
  -- The one idle for longest first.
  idle : List (Parked ε) := []
  created : Nat := 0
  -- Engines there are, idle or rented, and places reserved for engines to be made.
  live : Nat := 0
deriving Inhabited

/-- What can be made ready for the next one who uses it. -/
class Reusable (ε : Type) where
  ready : ε → ε

inductive Rental (ε : Type) where
  | engine (e : ε)
  | waiting
  | closed
deriving Inhabited

namespace Pool

variable {ε : Type}

def start (config : PoolConfig) : Pool ε := { config, permits := { free := config.maxSize } }

def popIdle (p : Pool ε) : Option (ε × Pool ε) :=
  match p.idle.getLast? with
  | some parked => some (parked.engine, { p with idle := p.idle.dropLast })
  | none => none

def reserve (p : Pool ε) : Option (Pool ε) :=
  if p.live < p.config.maxSize then some { p with live := p.live + 1 } else none

def create (p : Pool ε) : Pool ε := { p with created := p.created + 1 }

def park (p : Pool ε) (engine : ε) (now : Nat) : Pool ε :=
  { p with idle := p.idle ++ [⟨engine, now⟩] }

/-- An engine for the holder of a permit, a new one if none is idle. -/
def obtain (p : Pool ε) (fresh : Nat → ε) : Option (ε × Pool ε) :=
  match p.popIdle with
  | some found => some found
  | none => p.reserve.map fun p => (fresh p.created, p.create)

def rent (p : Pool ε) (t : Ticket) (fresh : Nat → ε) : Rental ε × Pool ε :=
  let (grant, permits) := p.permits.claim t
  let p := { p with permits }
  match grant with
  | .refused => (.closed, p)
  | .queued => (.waiting, p)
  | .granted =>
    match p.obtain fresh with
    | some (e, p) => (.engine e, p)
    | none => (.waiting, { p with permits := { permits with served := permits.served ++ [t] } })

def cancel (p : Pool ε) (t : Ticket) : Pool ε := { p with permits := p.permits.cancel t }

/-- Parks an engine before its permit is handed on, so that the next one finds it. -/
def giveBack [Reusable ε] (p : Pool ε) (engine : ε) (now : Nat) : Pool ε :=
  let p := p.park (Reusable.ready engine) now
  { p with permits := p.permits.release }

/-- Makes up to so many idle engines; gives back how many. -/
def prewarm (p : Pool ε) (fresh : Nat → ε) (now : Nat) : (count : Nat) → Nat × Pool ε
  | 0 => (0, p)
  | count + 1 =>
    match p.reserve with
    | none => (0, p)
    | some reserved =>
      let (made, after) :=
        prewarm ((reserved.create).park (fresh reserved.created) now) fresh now count
      (made + 1, after)

/-- Splits off up to `removable` of the engines that have been idle for `timeout`, longest first;
what is left over keeps its order. -/
def expire (timeout now : Nat) : (removable : Nat) → List (Parked ε) →
    List (Parked ε) × List (Parked ε)
  | _, [] => ([], [])
  | removable, parked :: rest =>
    if 0 < removable && timeout ≤ now - parked.since then
      let (expired, kept) := expire timeout now (removable - 1) rest
      (parked :: expired, kept)
    else
      let (expired, kept) := expire timeout now removable rest
      (expired, parked :: kept)

/-- Drops engines idle for too long, but keeps the pool at its least size; gives back how many. -/
def evict (p : Pool ε) (now : Nat) : Nat × Pool ε :=
  let (expired, kept) :=
    expire (1000 * p.config.idleTimeout) now (p.live - p.config.minSize) p.idle
  (expired.length, { p with idle := kept, live := p.live - expired.length })

def close (p : Pool ε) : Pool ε := { p with permits := p.permits.close }

end Pool

end GoalScript
