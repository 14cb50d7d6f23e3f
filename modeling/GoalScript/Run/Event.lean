import GoalScript.Goal.Binding
import GoalScript.Run.Basic

namespace GoalScript

namespace Run

def findGoal (app : App) (name : String) : Run Goal :=
  match app.library.get? name with
  | some goal => pure goal
  | none => throw (.goalNotFound name (Suggestion.nearest? name app.library.names))

/-- The values of a call's parameters, all of them in the caller's memory. -/
def resolveParameters (s : Store) : Table Json → Resolved (Table Value)
  | [] => .ok []
  | (name, json) :: rest => do
    let v ← s.resolveJson json
    return (name, v) :: (← resolveParameters s rest)

/-- A parameter takes the place of an extra value of the same name. -/
def mergeBound (extra parameters : Table Value) : Table Value :=
  parameters.foldl (fun t entry => t.insert entry.1 entry.2) extra

def bind (values : Table Value) : Run Unit := values.forM fun entry => put entry.1 entry.2

def fire (app : App) : Run Unit := do let _ ← await (.fire app) done

/-- Binds the parameters of a call, fires what that has queued, and runs the goal. -/
def enter (app : App) (nested : Nested) (call : GoalCall) (extra : Table Value)
    (origin : Option EventOrigin) : Run Control := do
  let goal ← findGoal app call.name
  let parameters ← ofMemory (resolveParameters (← get).store call.parameters)
  let locals := mergeBound extra parameters
  bind locals
  fire app
  nested { goal, origin, locals }

def asEvent {α : Type} (body : Run α) : Run α := do
  let before ← get
  set (before.setInEvent true true)
  afterwards body fun w =>
    w.setInEvent before.engine.context.inEvent before.engine.memory.inEvent

def takePending : Run (List PendingEvent) := do
  let w ← get
  let (events, s) := w.store.takePending
  set (w.withStore s)
  return events

def callBack (app : App) (nested : Nested) (e : PendingEvent) : Run Unit := do
  let sub := e.subscription
  let detail : Table Value := [("type", .text sub.eventType.word), ("value", e.value),
    ("variable", .text e.variableName)]
  let call := { name := sub.goalName, parameters := sub.parameters : GoalCall }
  let origin := { scope := .variable, eventType := sub.eventType : EventOrigin }
  let _ ← asEvent (enter app nested call [("event", .object detail)] (some origin))

/-- Takes what writes have queued; what nobody waits for is put off. -/
def callBackAll (app : App) (nested : Nested) : Run Control := do
  (← takePending).forM fun e =>
    if e.subscription.awaited then callBack app nested e else modifyContext (·.defer e)
  return .proceed

/-- Runs what was put off, after a pause. Failures concern nobody. -/
def runDeferred (app : App) (nested : Nested) : Run Unit := do
  match (← get).engine.context.deferred with
  | [] => return
  | events =>
    modifyContext fun c => { c with deferred := [] }
    wait app.config.eventDelay
    events.forM fun e => do let _ ← outcome (callBack app nested e)

def callGoal (app : App) (nested : Nested) (call : GoalCall) (extra : Table Value) :
    Run Control :=
  enter app nested call extra none

def runEventGoal (app : App) (nested : Nested) (call : GoalCall) (origin : EventOrigin)
    (parameters : Table Value) : Run Unit := do
  let _ ← asEvent (enter app nested call parameters (some origin))

/-- Runs the goals bound to an event one after the other, up to the first that fails. -/
def announce (app : App) (nested : Nested) (o : Occasion) (parameters : Table Value) :
    Run Unit := do
  if (← get).engine.context.inEvent then return
  (o.select app.library.events).forM fun b =>
    runEventGoal app nested b.goalToCall ⟨o.scope, b.eventType⟩ parameters

def appEvents (app : App) (nested : Nested) (scope : EventScope) : Run Unit :=
  announce app nested { scope } []

def goalEvents (app : App) (nested : Nested) (goal : Goal) (type : EventType) : Run Unit :=
  announce app nested { scope := .goal, eventType := some type, goal := some goal.name }
    [("goal", .text goal.name)]

def stepEvents (app : App) (nested : Nested) (site : Site) (type : EventType) : Run Unit :=
  announce app nested
    { scope := .step, eventType := some type, goal := some site.goal.name,
      step := some site.step.text }
    [("goal", .text site.goal.name), ("step", .text site.step.text)]

def errorParameters (e : EngineError) : Table Value :=
  let code := match e.statusCode with
    | some n => Value.number (Float.ofNat n)
    | none => .null
  [("error", .object [("key", .text e.key), ("message", .text e.message), ("status_code", code)])]

/-- Runs the goals bound to an error; one that fails itself ends the matter. -/
def runErrorBindings (app : App) (nested : Nested) (scope : EventScope) (e : EngineError) :
    List EventBinding → Run Unit
  | [] => return
  | b :: rest => do
    let result ← outcome
      (runEventGoal app nested b.goalToCall ⟨scope, .onError⟩ (errorParameters e))
    match result with
    | .ok _ => runErrorBindings app nested scope e rest
    | .error failure => throw (EngineError.aggregate e failure).markHandled

/-- Hands an error to the goals bound to it. It is thrown again when there are none, inside events,
and when it has been through here before. -/
def announceError (app : App) (nested : Nested) (o : Occasion) (e : EngineError) :
    Run Unit := do
  if (← get).engine.context.inEvent || e.kind == .alreadyHandled then throw e
  match o.select app.library.events with
  | [] => throw e
  | bindings => runErrorBindings app nested o.scope e bindings

def stepErrorEvents (app : App) (nested : Nested) (site : Site) (e : EngineError) : Run Unit :=
  announceError app nested
    { scope := .stepError, eventType := some .onError, goal := some site.goal.name,
      step := some site.step.text, key := some e.key } e

def goalErrorEvents (app : App) (nested : Nested) (goal : Goal) (e : EngineError) : Run Unit :=
  announceError app nested
    { scope := .goalError, eventType := some .onError, goal := some goal.name, key := some e.key } e

end Run

end GoalScript
