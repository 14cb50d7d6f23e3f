import GoalScript.Digest
import GoalScript.Goal.File
import GoalScript.Value.Basic

namespace GoalScript

structure Subscription where
  eventType : EventType
  goalName : String
  parameters : Table Json := []
  -- The callback runs before the step that caused it is over.
  awaited : Bool := true
  -- The digest of the goal that subscribed.
  subscriber : String := ""
deriving Repr, Inhabited, BEq

/-- A goal is identified by its path and its name, letter case of the name aside. -/
def goalHash (name path : String) : String :=
  Digest.sha256 (Digest.bytesOf (path ++ "\n" ++ Text.lowercase name))

namespace Subscription

def sameAs (s t : Subscription) : Bool :=
  s.eventType == t.eventType && Text.sameName s.goalName t.goalName && s.subscriber == t.subscriber

/-- Replaces the same subscription and goes to the end. -/
def addTo (s : Subscription) (subscriptions : List Subscription) : List Subscription :=
  (subscriptions.filter fun t => !t.sameAs s) ++ [s]

def ofJson? (json : Json) : Option Subscription := do
  let f ← Json.fields? ["event_type", "goal_name", "parameters", "wait_for_response",
    "calling_goal_hash"] json
  return {
    eventType := ← f.required "event_type" (Json.asWord EventType.ofWord?)
    goalName := ← f.required "goal_name" Json.asText
    parameters := ← f.defaulted "parameters" [] (Json.asTable Json.asJson)
    awaited := ← f.defaulted "wait_for_response" true Json.asBool
    subscriber := ← f.defaulted "calling_goal_hash" "" Json.asText }

def toJson (s : Subscription) : Json :=
  .object [("event_type", .text s.eventType.word), ("goal_name", .text s.goalName),
    ("parameters", .object s.parameters), ("wait_for_response", .bool s.awaited),
    ("calling_goal_hash", .text s.subscriber)]

end Subscription

/-- A variable that is not set may still carry subscriptions. A variable set to null is set. -/
structure Variable where
  name : String
  value : Value
  isSet : Bool := true
  parent : Option String := none
  subscriptions : List Subscription := []
deriving Repr, Inhabited

namespace Variable

def absent (name : String) : Variable := { name, value := .null, isSet := false }

def typeName (v : Variable) : String := v.value.typeName

def placeholder (expr : String) : Variable :=
  { name := expr, value := .text ("%" ++ expr ++ "%"), isSet := false }

end Variable

/-- A subscription that a write has triggered, with the new value of the variable. -/
structure PendingEvent where
  variableName : String
  value : Value
  subscription : Subscription
deriving Repr, Inhabited

end GoalScript
