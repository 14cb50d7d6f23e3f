namespace GoalScript

abbrev Ticket := Nat

structure Permits where
  free : Nat
  -- Those who wait, longest first.
  waiting : List Ticket := []
  -- Those for whom a permit is set aside.
  served : List Ticket := []
  closed : Bool := false
deriving Repr, Inhabited, DecidableEq

inductive Grant where
  | granted
  | queued
  | refused
deriving Repr, Inhabited, DecidableEq

namespace Permits

def release (p : Permits) : Permits :=
  match p.waiting with
  | [] => { p with free := p.free + 1 }
  | t :: rest => { p with waiting := rest, served := p.served ++ [t] }

/-- Gives up a claim, and the permit set aside for it. -/
def cancel (p : Permits) (t : Ticket) : Permits :=
  if p.served.contains t then { p with served := p.served.erase t }.release
  else { p with waiting := p.waiting.erase t }

/-- Claims a permit, or asks again. Nobody who comes later is served first. -/
def claim (p : Permits) (t : Ticket) : Grant × Permits :=
  if p.closed then (.refused, p.cancel t)
  else if p.served.contains t then (.granted, { p with served := p.served.erase t })
  else if p.waiting.contains t then (.queued, p)
  else if 0 < p.free then (.granted, { p with free := p.free - 1 })
  else (.queued, { p with waiting := p.waiting ++ [t] })

/-- From now on every claim is refused, also those that wait. -/
def close (p : Permits) : Permits := { p with closed := true }

end Permits

end GoalScript
