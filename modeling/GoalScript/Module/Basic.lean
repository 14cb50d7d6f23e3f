import GoalScript.CallStack
import GoalScript.Context
import GoalScript.Control
import GoalScript.Memory.Text
import GoalScript.Memory.Write
import GoalScript.Run.Error

namespace GoalScript

/-- What happened in a run, for whoever looks at it afterwards. -/
inductive Entry where
  | goalStarted (name : String) (origin : Option EventOrigin)
  | goalEnded (name : String)
  | stepStarted (goal : String) (index : Nat)
  | attempted (goal : String) (index : Nat)
  | succeeded (goal : String) (index : Nat)
  | waited (ms : Nat)
  | prompted (request : Request)
  | recorded (key : String)
  | noted (source text : String)
deriving Repr, DecidableEq, Inhabited

namespace Entry

def noteFrom? (source : String) : Entry → Option String
  | .noted speaker text => if speaker == source then some text else none
  | _ => none

def request? : Entry → Option Request
  | .prompted request => some request
  | _ => none

def recordedKey? : Entry → Option String
  | .recorded key => some key
  | _ => none

end Entry

def longestWait : Nat := 946080000000

/-- How long a wait or a time limit lasts: none goes beyond the longest wait. -/
def lasting (ms : Nat) : Nat := min ms longestWait

/-- What a module function can see and change. Time is the sum of the waits so far. -/
structure Surroundings where
  store : Store
  context : Context
  elapsed : Nat
  deadline : Option Nat := none
  -- Set when nobody waits for the function any more.
  cancelled : Bool := false
  -- Newest first.
  journal : List Entry := []
deriving Inhabited

inductive Halt where
  | failed (e : EngineError)
  | timedOut
deriving Repr, DecidableEq, Inhabited

structure Site where
  goal : Goal
  step : Step
deriving Inhabited

abbrev Call := ReaderT Site (ExceptT Halt (StateM Surroundings))

/-- Function names are matched up to ASCII case. -/
structure Module where
  name : String
  functions : List String
  call : String → Call Output

def Module.hasFunction (m : Module) (function : String) : Bool :=
  m.functions.any fun f => Text.sameName f function

namespace Call

def fail {α : Type} (e : EngineError) : Call α := throw (.failed e)

def failStep {α : Type} (e : StepError) : Call α := fail (.step e)

def ofMemory {α : Type} (r : Except MemoryError α) : Call α :=
  match r with
  | .ok a => pure a
  | .error e => fail (.memory e)

def getStore : Call Store := do return (← get).store

def setStore (store : Store) : Call Unit := modify fun s => { s with store }

def update (f : Store → Except MemoryError Store) : Call Unit := do
  setStore (← ofMemory (f (← getStore)))

def getValue (expr : String) : Call Value := do ofMemory ((← getStore).getValue expr)

def parameter? (name : String) : Call (Option Json) := do
  let parameters := (← read).step.instruction.parameters
  return (parameters.find? fun p => Text.sameName p.name name).map Parameter.value

def optional (name : String) : Call (Option Value) := do
  match ← parameter? name with
  | some json => do return some (← ofMemory ((← getStore).resolveJson json))
  | none => return none

def required (name : String) : Call Value := do
  match ← optional name with
  | some v => return v
  | none =>
    let step := (← read).step
    failStep {
      message := step.moduleType ++ "." ++ step.instruction.function ++
        " requires parameter '" ++ name ++ "'"
      key := "MissingParameter" }

/-- A parameter as it is written, for those that name a variable. -/
def raw (name : String) : Call String := do
  match ← parameter? name with
  | some (.text s) => return s
  | some json => return json.compact
  | none => return (← required name).display

def rawTable (name : String) : Call (Table Json) := do
  match ← parameter? name with
  | some (.object members) => return members
  | _ => return []

def variableName (name : String) : Call String := do
  let s := Text.trim (← raw name).toList
  return String.ofList (Text.trimWhile (· == '%') s)

/-- Waits; a wait that would pass the step's limit ends there and with it the function. -/
def wait (ms : Nat) : Call Unit := do
  let s ← get
  let ms := lasting ms
  if s.cancelled then return
  match s.deadline with
  | some deadline =>
    if deadline < s.elapsed + ms then
      set { s with elapsed := deadline, journal := .waited (deadline - s.elapsed) :: s.journal }
      throw .timedOut
    else set { s with elapsed := s.elapsed + ms, journal := .waited ms :: s.journal }
  | none => set { s with elapsed := s.elapsed + ms, journal := .waited ms :: s.journal }

def note (source text : String) : Call Unit :=
  modify fun s => { s with journal := .noted source text :: s.journal }

/-- Fails with a request unless access to the file has been granted. -/
def requireFile (path : String) : Call Unit := do
  if (← get).context.isGranted path then return
  else fail (.interactive (.fileAccess path))

def unknownFunction {α : Type} (moduleName function : String) : Call α :=
  failStep {
    message := "module '" ++ moduleName ++ "' has no function '" ++ function ++ "'"
    key := "FunctionNotFound" }

end Call

end GoalScript
