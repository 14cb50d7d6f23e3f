import GoalScript.Pool.Basic
import GoalScript.Table

namespace GoalScript

/-- Guests are known by name and have one engine at most. -/
structure Desk (ε : Type) where
  pool : Pool ε
  rented : Table ε := []
  tickets : Table Ticket := []
  nextTicket : Ticket := 0
deriving Inhabited

namespace Desk

variable {ε : Type}

def start (config : PoolConfig) : Desk ε := { pool := .start config }

def giveBack [Reusable ε] (d : Desk ε) (guest : String) (now : Nat) : Desk ε :=
  match d.rented.get? guest with
  | none => d
  | some e => { d with rented := d.rented.erase guest, pool := d.pool.giveBack e now }

def cancel (d : Desk ε) (guest : String) : Desk ε :=
  match d.tickets.get? guest with
  | none => d
  | some t => { d with tickets := d.tickets.erase guest, pool := d.pool.cancel t }

def keepOnly (d : Desk ε) (guest : String) (t : Ticket) : Desk ε :=
  match d.tickets.get? guest with
  | none => d
  | some old => if old == t then d else d.cancel guest

/-- Claims an engine for a guest under a ticket. A former engine of the guest goes back for it, and
a former claim is given up. -/
def claim [Reusable ε] (d : Desk ε) (guest : String) (t : Ticket) (fresh : Nat → ε) (now : Nat) :
    Rental ε × Desk ε :=
  let (rental, pool) := d.pool.rent t fresh
  let d := keepOnly { d with pool } guest t
  match rental with
  | .engine e =>
    let d := giveBack { d with tickets := d.tickets.erase guest } guest now
    (.engine e, { d with rented := d.rented.insert guest e })
  | .waiting => (.waiting, { d with tickets := d.tickets.insert guest t })
  | .closed => (.closed, { d with tickets := d.tickets.erase guest })

def rent [Reusable ε] (d : Desk ε) (guest : String) (fresh : Nat → ε) (now : Nat) :
    Rental ε × Desk ε :=
  claim { d with nextTicket := d.nextTicket + 1 } guest d.nextTicket fresh now

def askAgain [Reusable ε] (d : Desk ε) (guest : String) (fresh : Nat → ε) (now : Nat) :
    Option (Rental ε × Desk ε) :=
  (d.tickets.get? guest).map fun t => d.claim guest t fresh now

def replace (d : Desk ε) (guest : String) (e : ε) : Desk ε :=
  { d with rented := d.rented.insert guest e }

end Desk

end GoalScript
