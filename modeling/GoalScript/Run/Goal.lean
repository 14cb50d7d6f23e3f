import GoalScript.Run.Step

namespace GoalScript.Run

/-- How the loop over a goal's steps goes on after one of them. An error that the error events deal
with, now or before, ends the goal. -/
def afterStep (app : App) (nested : Nested) (goal : Goal) (result : Except EngineError Control) :
    Run Control := do
  match result with
  | .ok control => return control
  | .error e =>
    match ← outcome (goalErrorEvents app nested goal e) with
    | .ok _ => return .exit 1
    | .error e' => if e'.kind == .alreadyHandled then return .exit 1 else throw e'

def runSteps (app : App) (nested : Nested) (goal : Goal) : List Step → Run Control
  | [] => return .proceed
  | step :: rest => do
    match ← afterStep app nested goal (← outcome (runStep app nested ⟨goal, step⟩)) with
    | .proceed => runSteps app nested goal rest
    | control => return control

def goalBody (app : App) (nested : Nested) (goal : Goal) : Run Control := do
  goalEvents app nested goal .before
  let control ← runSteps app nested goal goal.steps
  goalEvents app nested goal .after
  return control.unwind

/-- Every injection of a goal becomes an alias. -/
def inject (goal : Goal) (w : World) : World :=
  goal.injections.foldl (fun w i =>
    let handle := w.engine.registry.change w.host.freshStamp fun r =>
      r.addAlias i.moduleType i.implementation
    { engine := { w.engine with registry := handle }
      host := { w.host with freshStamp := w.host.freshStamp + 1 } }) w

def enterGoal (inv : Invocation) (w : World) : World :=
  let w := inject inv.goal w
  let frame := { goal := inv.goal, origin := inv.origin, locals := inv.locals : Frame }
  { w with engine := { w.engine with
    context := w.engine.context.enterScope inv.goal.comment
    stack := frame :: w.engine.stack } }.record (.goalStarted inv.goal.name inv.origin)

def leaveGoal (goal : Goal) (before : World) (w : World) : World :=
  let registry := if goal.injections.isEmpty then w.engine.registry else before.engine.registry
  ({ w with engine := { w.engine with
    registry
    stack := w.engine.stack.tail } }.setLogLevel before.engine.context.logLevel).record
    (.goalEnded goal.name)

/-- Runs a goal in a frame of its own, if there is room for one. -/
def goalRun (app : App) (nested : Nested) (inv : Invocation) : Run Control := do
  let before ← get
  if app.config.maxCallDepth ≤ before.engine.stack.length then
    throw (.stackOverflow app.config.maxCallDepth before.engine.stack.trace)
  update (enterGoal inv)
  afterwards (goalBody app nested inv.goal) (leaveGoal inv.goal before)

def runGoal (app : App) : Nested := fun inv => await (.goal app inv) done

end GoalScript.Run
