import GoalScript.Memory.Basic
import GoalScript.Value.Tagged

namespace GoalScript

def MemoryError.toJson (e : MemoryError) : Json :=
  .object [("error", .text e.key), ("message", .text e.message)]

def Variable.toJson (v : Variable) : Json :=
  .object [("name", .text v.name), ("value", v.value.tagged), ("type", .text v.typeName),
    ("initiated", .bool v.isSet), ("parent", .ofText? v.parent),
    ("events", .array (v.subscriptions.map Subscription.toJson))]

def PendingEvent.toJson (e : PendingEvent) : Json :=
  .object [("variable", .text e.variableName), ("value", e.value.tagged),
    ("event", e.subscription.toJson)]

def Store.valuesJson (s : Store) : Json :=
  .object ((s.memory.vars.filter fun entry => entry.2.isSet).map fun entry =>
    (entry.2.name, entry.2.value.tagged))

end GoalScript
