import GoalScript.Config.Basic
import GoalScript.Registry

namespace GoalScript

inductive Reply where
  | answer (v : Value)
  | decline
  | failure (text : String)
deriving Repr, Inhabited

/-- What engines share. Time stands still but for waits. -/
structure Host where
  shared : Shared := {}
  now : Calendar.Instant := ⟨0, 0⟩
  -- Milliseconds waited so far.
  elapsed : Nat := 0
  -- Newest first.
  journal : List Entry := []
  replies : List Reply := []
  -- After the last reply every request is declined or fails with a text.
  refusals : Nat → Option String := fun _ => none
  freshStamp : Nat := 0
deriving Inhabited

structure Engine where
  id : Nat := 0
  memory : Memory := {}
  stack : CallStack := []
  context : Context := {}
  registry : Handle
  base : Handle
deriving Inhabited

namespace Engine

def start (id : Nat) (registry : Handle) (buildMode : Bool) : Engine :=
  { id, memory := { buildMode }, registry, base := registry }

/-- Forgets the run, but neither shared variables nor settings. -/
def reset (e : Engine) : Engine :=
  { e with
    registry := e.base
    memory := e.memory.reset
    stack := []
    context := e.context.reset }

/-- Uses another registry until the next reset. -/
def withRegistry (e : Engine) (registry : Handle) : Engine := { e with registry }

/-- Uses another registry for good. -/
def rebase (e : Engine) (registry : Handle) : Engine := { e with registry, base := registry }

end Engine

/-- What a failed run has done up to its failure stays done. -/
structure World where
  engine : Engine
  host : Host
deriving Inhabited

namespace World

def store (w : World) : Store :=
  { memory := w.engine.memory, shared := w.host.shared, now := w.host.now }

def withStore (w : World) (s : Store) : World :=
  { engine := { w.engine with memory := s.memory }, host := { w.host with shared := s.shared } }

def record (w : World) (entry : Entry) : World :=
  { w with host := { w.host with journal := entry :: w.host.journal } }

/-- Both flags that tell whether an event goal runs. -/
def setInEvent (w : World) (inContext inMemory : Bool) : World :=
  { w with engine := { w.engine with
    context := { w.engine.context with inEvent := inContext }
    memory := { w.engine.memory with inEvent := inMemory } } }

def setLogLevel (w : World) (level : Option LogLevel) : World :=
  { w with engine := { w.engine with context := { w.engine.context with logLevel := level } } }

end World

end GoalScript
