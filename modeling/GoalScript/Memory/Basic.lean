import GoalScript.Memory.Error
import GoalScript.Memory.Variable
import GoalScript.Plan.Parser
import GoalScript.Settings

namespace GoalScript

structure Shared where
  vars : Table Variable := []
  settings : Settings := {}
deriving Repr, Inhabited

/-- One stack's own part. In build mode names that cannot be resolved are tolerated. -/
structure Memory where
  vars : Table Variable := []
  buildMode : Bool := false
  -- Up while an event goal runs: writes then trigger nothing.
  inEvent : Bool := false
  pending : List PendingEvent := []
deriving Repr, Inhabited

def Memory.reset (m : Memory) : Memory := { m with vars := [], pending := [], inEvent := false }

/-- A stack together with what it shares, at a point in time. -/
structure Store where
  memory : Memory := {}
  shared : Shared := {}
  now : Calendar.Instant := ⟨0, 0⟩
deriving Repr, Inhabited

/-- The name under which an expression's variable is stored. -/
def variableKey (expr : String) : String :=
  Text.lowercase (String.ofList (Plan.translateEscapes (Plan.strip expr.toList)))

namespace Store

def lookup? (s : Store) (key : String) : Option Variable :=
  (s.memory.vars.get? key).or (s.shared.vars.get? key)

def contains (s : Store) (name : String) : Bool :=
  match s.lookup? (variableKey name) with
  | some v => v.isSet
  | none => false

def names (s : Store) : List String :=
  ((s.memory.vars.filter fun entry => entry.2.isSet).map fun entry => entry.2.name).mergeSort
    (fun a b => decide (a ≤ b))

def takePending (s : Store) : List PendingEvent × Store :=
  (s.memory.pending, { s with memory := { s.memory with pending := [] } })

def setInEvent (s : Store) (inEvent : Bool) : Store :=
  { s with memory := { s.memory with inEvent } }

def reset (s : Store) : Store := { s with memory := s.memory.reset }

end Store

end GoalScript
