import GoalScript.Goal.Basic
import GoalScript.Text.Case
import GoalScript.Text.Search

namespace GoalScript

inductive EventScope where
  | startOfApp | endOfApp | goal | step | variable | goalError | stepError
deriving Repr, DecidableEq, Inhabited

inductive EventType where
  | before | after | onCreate | onChange | onRemove | onError
deriving Repr, DecidableEq, Inhabited

def EventScope.word : EventScope → String
  | .startOfApp => "start_of_app"
  | .endOfApp => "end_of_app"
  | .goal => "goal"
  | .step => "step"
  | .variable => "variable"
  | .goalError => "goal_error"
  | .stepError => "step_error"

def EventScope.title : EventScope → String
  | .startOfApp => "StartOfApp"
  | .endOfApp => "EndOfApp"
  | .goal => "Goal"
  | .step => "Step"
  | .variable => "Variable"
  | .goalError => "GoalError"
  | .stepError => "StepError"

def EventType.word : EventType → String
  | .before => "before"
  | .after => "after"
  | .onCreate => "on_create"
  | .onChange => "on_change"
  | .onRemove => "on_remove"
  | .onError => "on_error"

def EventScope.all : List EventScope :=
  [.startOfApp, .endOfApp, .goal, .step, .variable, .goalError, .stepError]

def EventType.all : List EventType := [.before, .after, .onCreate, .onChange, .onRemove, .onError]

def EventScope.ofWord? (word : String) : Option EventScope :=
  EventScope.all.find? fun scope => scope.word == word

def EventType.ofWord? (word : String) : Option EventType :=
  EventType.all.find? fun type => type.word == word

structure EventBinding where
  scope : EventScope
  eventType : EventType
  goalToCall : GoalCall
  goalFilter : Option String := none
  stepFilter : Option String := none
  keyFilter : Option String := none
deriving Repr, Inhabited, BEq

namespace EventBinding

/-- A filter that ends in a star admits the names that begin with what stands before it. -/
def patternMatches (pattern name : List Char) : Bool :=
  if pattern.getLast? == some '*' then (Text.lower pattern.dropLast).isPrefixOf (Text.lower name)
  else Text.eqIgnoringCase pattern name

def matchesGoal (b : EventBinding) (name : String) : Bool :=
  match b.goalFilter with
  | none => true
  | some pattern => patternMatches pattern.toList name.toList

def matchesStep (b : EventBinding) (text : String) : Bool :=
  match b.stepFilter with
  | none => true
  | some part => Text.contains (Text.lower text.toList) (Text.lower part.toList)

def matchesKey (b : EventBinding) (key : String) : Bool :=
  match b.keyFilter with
  | none => true
  | some filter => filter == "*" || Text.sameName filter key

end EventBinding

end GoalScript
