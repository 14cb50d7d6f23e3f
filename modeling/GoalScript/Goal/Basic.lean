import GoalScript.Json.Basic

namespace GoalScript

structure GoalCall where
  name : String
  parameters : Table Json := []
deriving Repr, Inhabited, BEq

/-- A module that a goal swaps in for the duration of its run. -/
structure Injection where
  moduleType : String
  implementation : String
deriving Repr, Inhabited, BEq

structure Parameter where
  name : String
  value : Json
deriving Repr, Inhabited, BEq

structure Instruction where
  function : String
  parameters : List Parameter := []
  returnVariable : Option String := none
deriving Repr, Inhabited, BEq

structure RetryPolicy where
  count : Nat
  delay : Nat := 0
deriving Repr, Inhabited, BEq

/-- A handler without message, key and status code catches every error. -/
structure ErrorHandler where
  message : Option String := none
  key : Option String := none
  statusCode : Option Nat := none
  ignoreError : Bool := false
  goalToCall : Option GoalCall := none
  retry : Option RetryPolicy := none
  retryBeforeGoal : Bool := false
deriving Repr, Inhabited, BEq

def ErrorHandler.isCatchAll (h : ErrorHandler) : Bool :=
  h.message.isNone && h.key.isNone && h.statusCode.isNone

/-- A step's time limit, and the goal to run instead of the step once it is over. -/
structure Cancellation where
  timeout : Option Nat := none
  goalToCall : Option GoalCall := none
deriving Repr, Inhabited, BEq

structure Step where
  index : Nat := 0
  text : String := ""
  moduleType : String
  instruction : Instruction
  comment : Option String := none
  runOnce : Bool := false
  disabled : Bool := false
  errorHandlers : List ErrorHandler := []
  cancellation : Option Cancellation := none
  indent : Nat := 0
deriving Repr, Inhabited, BEq

/-- A step is described by what it calls until it is given a text. -/
def Step.new (moduleType : String) (instruction : Instruction) : Step :=
  { text := moduleType ++ "." ++ instruction.function, moduleType, instruction }

structure Goal where
  name : String
  steps : List Step := []
  parentGoal : Option String := none
  comment : Option String := none
  path : String := ""
  isSetup : Bool := false
  injections : List Injection := []
deriving Repr, Inhabited, BEq

def numbered (steps : List Step) : List Step := steps.mapIdx fun i step => { step with index := i }

def Goal.new (name : String) (steps : List Step) : Goal :=
  { name, steps := numbered steps, path := "/" ++ name ++ ".goal" }

end GoalScript
