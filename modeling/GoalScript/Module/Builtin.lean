import GoalScript.Module.Basic

namespace GoalScript.Builtin

open Call

def dropOns : List Char → List Char
  | 'o' :: 'n' :: rest => dropOns rest
  | s => s

def eventType? (text : String) : Option EventType :=
  let letters := (Text.lower text.toList).filter fun c => c != '_' && c != ' '
  match String.ofList (dropOns letters) with
  | "create" => some .onCreate
  | "created" => some .onCreate
  | "change" => some .onChange
  | "changed" => some .onChange
  | "remove" => some .onRemove
  | "removed" => some .onRemove
  | "delete" => some .onRemove
  | "deleted" => some .onRemove
  | _ => none

def eventType (text : String) : Call EventType :=
  match eventType? text with
  | some type => pure type
  | none => failStep { message := "unknown variable event '" ++ text ++ "'", key := "InvalidEvent" }

/-- Appending makes a list of whatever is neither a list nor a text. -/
def appended (v new : Value) : Value :=
  match v with
  | .null => .list [new]
  | .list items => .list (items ++ [new])
  | .text s => .text (s ++ new.display)
  | other => .list [other, new]

def subscription : Call Subscription := do
  let type ← eventType (← required "event").display
  let goalName := (← required "goal").display
  let awaited := ((← optional "wait").map Value.isTruthy).getD true
  let goal := (← read).goal
  return {
    eventType := type
    goalName
    parameters := ← rawTable "parameters"
    awaited
    subscriber := goalHash goal.name goal.path }

def variableCall (function : String) : Call Output :=
  match Text.lowercase function with
  | "set" => do
    let name ← variableName "name"
    let value := (← optional "value").getD .null
    update (·.put name value)
    return .nothing
  | "set_static" => do
    let name ← variableName "name"
    let value := (← optional "value").getD .null
    update (·.putShared name value)
    return .nothing
  | "get" => do return .value (← getValue (← variableName "name"))
  | "remove" => do
    let name ← variableName "name"
    update (·.remove name)
    return .nothing
  | "append" => do
    let name ← variableName "name"
    let value ← required "value"
    let current ← getValue name
    update (·.put name (appended current value))
    return .nothing
  | "subscribe" => do
    let name ← variableName "name"
    let sub ← subscription
    update fun s => .ok (s.subscribe name sub)
    return .nothing
  | other => unknownFunction "variable" other

def vars : Module where
  name := "variable"
  functions := ["set", "set_static", "get", "remove", "append", "subscribe"]
  call := variableCall

/-- Numbers below 1, and not-a-number, count as one level. -/
def levelsOf (v : Option Value) : Nat :=
  match v.bind Value.number? with
  | some x => max 1 (Number.clampedNat Number.max64 x)
  | none => 1

def thrown : Call StepError := do
  let message := (← required "message").display
  let key := match ← optional "key" with
    | none => "StepError"
    | some .null => "StepError"
    | some v => v.display
  let code := (← optional "status_code").bind Value.number?
  return { message, key, statusCode := code.map (Number.clampedNat Number.max16) }

def goalCall (function : String) : Call Output :=
  match Text.lowercase function with
  | "call" => do
    let name := (← required "name").display
    return .callGoal { name, parameters := ← rawTable "parameters" }
  | "end" => do return .exit (levelsOf (← optional "levels"))
  | "return" => do return .returned (← optional "value")
  | "throw" => do failStep (← thrown)
  | other => unknownFunction "goal" other

def goals : Module where
  name := "goal"
  functions := ["call", "end", "return", "throw"]
  call := goalCall

def conditionCall (function : String) : Call Output :=
  match Text.lowercase function with
  | "if" => do return .branch (← required "value").isTruthy
  | other => unknownFunction "condition" other

def conditions : Module where
  name := "condition"
  functions := ["if"]
  call := conditionCall

def timeCall (function : String) : Call Output :=
  match Text.lowercase function with
  | "sleep" => do
    wait (Number.clampedNat Number.max64 (((← required "ms").number?).getD 0.0))
    return .nothing
  | "now" => do return .value (.date (← getStore).now)
  | other => unknownFunction "time" other

def times : Module where
  name := "time"
  functions := ["sleep", "now"]
  call := timeCall

/-- A variable that has a value is not asked for. -/
def userCall (function : String) : Call Output :=
  match Text.lowercase function with
  | "ask" => do
    let question := (← required "question").display
    let name ← variableName "answer"
    match ← getValue name with
    | .null => fail (.interactive (.ask question name))
    | answer => return .value answer
  | other => unknownFunction "user" other

def users : Module where
  name := "user"
  functions := ["ask"]
  call := userCall

def all : List Module := [vars, goals, conditions, times, users]

end GoalScript.Builtin
