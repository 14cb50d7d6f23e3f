import GoalScript.Goal.Event
import GoalScript.Value.Basic

namespace GoalScript

inductive Phase where
  | executingGoal
  | executingStep
deriving Repr, DecidableEq, Inhabited

structure EventOrigin where
  scope : EventScope
  eventType : EventType
deriving Repr, DecidableEq, Inhabited

/-- One run of a goal. Which conditional steps are open belongs to the run, not to the goal. -/
structure Frame where
  goal : Goal
  stepIndex : Option Nat := none
  phase : Phase := .executingGoal
  origin : Option EventOrigin := none
  locals : Table Value := []
  openSteps : List Nat := []
deriving Repr, Inhabited

namespace Frame

def currentStep? (f : Frame) : Option Step :=
  match f.phase, f.stepIndex with
  | .executingStep, some i => f.goal.steps[i]?
  | _, _ => none

def isOpen (f : Frame) (index : Nat) : Bool := f.openSteps.contains index

def setOpen (f : Frame) (indices : List Nat) (isOpen : Bool) : Frame :=
  let others := f.openSteps.filter fun i => !indices.contains i
  { f with openSteps := if isOpen then indices ++ others else others }

def enterStep (f : Frame) (index : Nat) : Frame :=
  { f with stepIndex := some index, phase := .executingStep }

def leaveStep (f : Frame) : Frame := { f with phase := .executingGoal }

/-- One line of a trace. Steps count from 1 there, and from 0 again after 64 bits. -/
def trace (f : Frame) : String :=
  let step := match f.stepIndex with
    | some i =>
      " step " ++ toString ((i + 1) % Number.word64) ++ ": " ++
        ((f.goal.steps[i]?).map Step.text).getD ""
    | none => ""
  let event := match f.origin with
    | some o => " [" ++ o.scope.title ++ " " ++ o.eventType.word ++ "]"
    | none => ""
  "  at " ++ f.goal.name ++ " (" ++ f.goal.path ++ ")" ++ step ++ event ++ "\n"

end Frame

abbrev CallStack := List Frame

namespace CallStack

def modifyTop (stack : CallStack) (f : Frame → Frame) : CallStack :=
  match stack with
  | frame :: rest => f frame :: rest
  | [] => []

def enterStep (stack : CallStack) (index : Nat) : CallStack := stack.modifyTop (·.enterStep index)

def leaveStep (stack : CallStack) : CallStack := stack.modifyTop Frame.leaveStep

def setOpen (stack : CallStack) (indices : List Nat) (isOpen : Bool) : CallStack :=
  stack.modifyTop (·.setOpen indices isOpen)

def isOpen (stack : CallStack) (index : Nat) : Bool :=
  match stack with
  | frame :: _ => frame.isOpen index
  | [] => false

def goalNames (stack : CallStack) : List String := stack.map fun f => f.goal.name

def containsGoal (stack : CallStack) (name : String) : Bool :=
  stack.any fun f => Text.sameName f.goal.name name

def trace (stack : CallStack) : String := String.join (stack.map Frame.trace)

end CallStack

end GoalScript
