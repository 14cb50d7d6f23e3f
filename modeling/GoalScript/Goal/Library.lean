import GoalScript.Goal.Event

namespace GoalScript

structure LibraryFile where
  goals : List Goal := []
  events : List EventBinding := []
  defaultGoal : Option String := none
deriving Repr, Inhabited, BEq

/-- Goals are kept by lower-case name; `setup` names the setup goals in the order declared. -/
structure Library where
  goals : Table Goal := []
  setup : List String := []
  events : List EventBinding := []
  defaultGoal : Option String := none
deriving Repr, Inhabited

namespace Library

def insert (lib : Library) (goal : Goal) : Library :=
  { lib with
    goals := lib.goals.insert (Text.lowercase goal.name)
      { goal with steps := numbered goal.steps }
    setup := if goal.isSetup then lib.setup ++ [goal.name] else lib.setup }

def ofFile (file : LibraryFile) : Library :=
  file.goals.foldl insert { events := file.events, defaultGoal := file.defaultGoal }

def get? (lib : Library) (name : String) : Option Goal := lib.goals.get? (Text.lowercase name)

def names (lib : Library) : List String := lib.goals.map fun entry => entry.2.name

def goalsByName (lib : Library) : List Goal :=
  (lib.goals.map Prod.snd).mergeSort fun a b => decide (a.name ≤ b.name)

def setupGoals (lib : Library) : List Goal := lib.setup.filterMap lib.get?

end Library

end GoalScript
