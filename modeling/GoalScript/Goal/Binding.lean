import GoalScript.Goal.Event

namespace GoalScript

/-- What happened where. What an event does not tell is absent: its type at the start and the end of
an app, which concern bindings of every type. -/
structure Occasion where
  scope : EventScope
  eventType : Option EventType := none
  goal : Option String := none
  step : Option String := none
  key : Option String := none
deriving Repr, Inhabited, DecidableEq

namespace EventBinding

/-- Without a filter everything is admitted, even what the event does not tell. -/
def admits (filter : Option String) (accepts : String → Bool) (told : Option String) : Bool :=
  filter.isNone || told.any accepts

def concerns (o : Occasion) (b : EventBinding) : Bool :=
  b.scope == o.scope && o.eventType.all (· == b.eventType) &&
    admits b.goalFilter b.matchesGoal o.goal && admits b.stepFilter b.matchesStep o.step &&
    admits b.keyFilter b.matchesKey o.key

end EventBinding

def Occasion.select (o : Occasion) (bindings : List EventBinding) : List EventBinding :=
  bindings.filter (EventBinding.concerns o)

end GoalScript
