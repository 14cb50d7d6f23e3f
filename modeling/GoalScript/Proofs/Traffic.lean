import GoalScript.Pool.Service
import Mathlib.Algebra.BigOperators.Group.Multiset.Basic
import Mathlib.Logic.Relation

namespace GoalScript

/-- What is told apart by a number, which making it ready does not change. -/
class Numbered (ε : Type) extends Reusable ε where
  number : ε → Nat
  number_ready (e : ε) : number (ready e) = number e

instance : Numbered Engine where
  number := Engine.id
  number_ready _ := rfl

/-- How far somebody has come who rents an engine or prewarms the pool. -/
inductive Visitor (ε : Type) where
  -- Asks for a permit.
  | asking (t : Ticket)
  -- Has a permit and looks for an idle engine.
  | looking
  -- Has found none.
  | missing
  -- Has reserved a place for a new one.
  | placed
  -- Has made it.
  | made (e : ε)
  | renting (e : ε)
  -- Has parked the engine and still has the permit.
  | leaving
  -- Is about to make so many idle engines.
  | warming (left : Nat)
  -- Has reserved a place for one of them.
  | warmPlaced (left : Nat)
  | warmMade (left : Nat) (e : ε)

variable {ε : Type}

/-- What is reached at one go, and nobody else comes between. A renter leaves for good when no
permit is given out any more, by giving up, or when engine and permit are back. -/
inductive Move [Numbered ε] (fresh : Nat → ε) :
    Pool ε → Visitor ε → Pool ε → Option (Visitor ε) → Prop where
  | grant {p : Pool ε} {t : Ticket} {permits : Permits}
      (h : p.permits.claim t = (.granted, permits)) :
      Move fresh p (.asking t) { p with permits } (some .looking)
  | queue {p : Pool ε} {t : Ticket} {permits : Permits}
      (h : p.permits.claim t = (.queued, permits)) :
      Move fresh p (.asking t) { p with permits } (some (.asking t))
  | refuse {p : Pool ε} {t : Ticket} {permits : Permits}
      (h : p.permits.claim t = (.refused, permits)) :
      Move fresh p (.asking t) { p with permits } none
  | cancel (p : Pool ε) (t : Ticket) : Move fresh p (.asking t) (p.cancel t) none
  | find {p q : Pool ε} {e : ε} (h : p.popIdle = some (e, q)) :
      Move fresh p .looking q (some (.renting e))
  | miss {p : Pool ε} (h : p.popIdle = none) : Move fresh p .looking p (some .missing)
  | giveUp (p : Pool ε) :
      Move fresh p .looking { p with permits := p.permits.release } none
  | place {p q : Pool ε} (h : p.reserve = some q) : Move fresh p .missing q (some .placed)
  | full {p : Pool ε} (h : p.reserve = none) : Move fresh p .missing p (some .looking)
  | make (p : Pool ε) : Move fresh p .placed p.create (some (.made (fresh p.created)))
  | handOver (p : Pool ε) (e : ε) : Move fresh p (.made e) p (some (.renting e))
  | use (p : Pool ε) {e e' : ε} (same : Numbered.number e' = Numbered.number e) :
      Move fresh p (.renting e) p (some (.renting e'))
  | park (p : Pool ε) (e : ε) (now : Nat) :
      Move fresh p (.renting e) (p.park (Reusable.ready e) now) (some .leaving)
  | leave (p : Pool ε) :
      Move fresh p .leaving { p with permits := p.permits.release } none
  | warmPlace {p q : Pool ε} {left : Nat} (h : p.reserve = some q) :
      Move fresh p (.warming (left + 1)) q (some (.warmPlaced left))
  | warmFull {p : Pool ε} {left : Nat} (h : p.reserve = none) :
      Move fresh p (.warming (left + 1)) p none
  | warmMake (p : Pool ε) (left : Nat) :
      Move fresh p (.warmPlaced left) p.create (some (.warmMade left (fresh p.created)))
  | rebase (p : Pool ε) {left : Nat} {e e' : ε} (same : Numbered.number e' = Numbered.number e) :
      Move fresh p (.warmMade left e) p (some (.warmMade left e'))
  | warmPark (p : Pool ε) (left : Nat) (e : ε) (now : Nat) :
      Move fresh p (.warmMade left e) (p.park e now) (some (.warming left))
  | warmEnd (p : Pool ε) : Move fresh p (.warming 0) p none

/-- A pool with those who are at it. Anything may happen at the pool between one step of a visitor
and the next. -/
structure Traffic (ε : Type) where
  pool : Pool ε
  visitors : Multiset (Visitor ε) := 0
  -- Tickets drawn so far.
  tickets : Nat := 0
  -- Engines dropped so far, for having been idle.
  dropped : Multiset ε := 0
  -- Engines that have just been dropped are being torn down.
  evicting : Bool := false

namespace Pool

def expired (p : Pool ε) (now : Nat) : List (Parked ε) :=
  (expire (1000 * p.config.idleTimeout) now (p.live - p.config.minSize) p.idle).1

end Pool

namespace Traffic

variable [Numbered ε] {fresh : Nat → ε} {config : PoolConfig} {s : Traffic ε}
  {rest : Multiset (Visitor ε)}

/-- What can happen next: somebody comes or gets on, idle engines are dropped unless they are being
dropped already, or the pool is closed. -/
inductive Step (fresh : Nat → ε) : Traffic ε → Traffic ε → Prop where
  | rent (s : Traffic ε) : Step fresh s
      { s with visitors := .asking s.tickets ::ₘ s.visitors, tickets := s.tickets + 1 }
  | prewarm (s : Traffic ε) (count : Nat) : Step fresh s
      { s with visitors := .warming count ::ₘ s.visitors }
  | move {s : Traffic ε} {v : Visitor ε} {rest : Multiset (Visitor ε)} {q : Pool ε}
      {v' : Option (Visitor ε)} (here : s.visitors = v ::ₘ rest) (h : Move fresh s.pool v q v') :
      Step fresh s { s with pool := q, visitors := v'.toList + rest }
  | evict {s : Traffic ε} (h : s.evicting = false) (now : Nat) : Step fresh s
      { s with
        pool := (s.pool.evict now).2
        dropped := (s.pool.expired now).map Parked.engine + s.dropped
        evicting := true }
  | tearDown (s : Traffic ε) : Step fresh s { s with evicting := false }
  | close (s : Traffic ε) : Step fresh s { s with pool := s.pool.close }

def start (config : PoolConfig) : Traffic ε := { pool := .start config }

def Reachable (config : PoolConfig) (fresh : Nat → ε) : Traffic ε → Prop :=
  Relation.ReflTransGen (Step fresh) (start config)

theorem Step.goOn {v v' : Visitor ε} {q : Pool ε} (here : s.visitors = v ::ₘ rest)
    (h : Move fresh s.pool v q (some v')) :
    Step fresh s { s with pool := q, visitors := v' ::ₘ rest } :=
  .move here h

theorem Step.goAway {v : Visitor ε} {q : Pool ε} (here : s.visitors = v ::ₘ rest)
    (h : Move fresh s.pool v q none) : Step fresh s { s with pool := q, visitors := rest } := by
  have gone := Step.move here h
  rwa [Option.toList_none, Multiset.coe_nil, zero_add] at gone

/-- An engine goes back in two steps. -/
theorem runs_giveBack {e : ε} (here : s.visitors = .renting e ::ₘ rest) (now : Nat) :
    Relation.ReflTransGen (Step fresh) s
      { s with pool := s.pool.giveBack e now, visitors := rest } := by
  have park : Move fresh s.pool (.renting e) (s.pool.park (Reusable.ready e) now)
      (some .leaving) := .park s.pool e now
  exact .tail (.single (.goOn here park)) (.goAway rfl (.leave _))

/-- Prewarming goes on until enough engines are made or the pool is full. -/
theorem runs_prewarm (now count : Nat) (here : s.visitors = .warming count ::ₘ rest) :
    Relation.ReflTransGen (Step fresh) s
      { s with pool := (s.pool.prewarm fresh now count).2, visitors := rest } := by
  induction count generalizing s with
  | zero => exact .single (.goAway here (.warmEnd _))
  | succ count ih =>
    unfold Pool.prewarm
    cases room : s.pool.reserve with
    | none => exact .single (.goAway here (.warmFull room))
    | some q =>
      let placed : Traffic ε := { s with pool := q, visitors := .warmPlaced count ::ₘ rest }
      let made : Traffic ε := { s with
        pool := q.create
        visitors := .warmMade count (fresh q.created) ::ₘ rest }
      have place : Step fresh s placed := .goOn here (.warmPlace room)
      have make : Step fresh placed made := .goOn rfl (.warmMake q count)
      exact .head place (.head make (.head (.goOn rfl (.warmPark _ count _ now)) (ih rfl)))

end Traffic

end GoalScript
