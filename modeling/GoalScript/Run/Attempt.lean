import GoalScript.Run.Event

namespace GoalScript.Run

def callModule (m : Module) (site : Site) (limit : Nat) : Run (Except Halt Output) := do
  let w ← get
  let surroundings : Surroundings := {
    store := w.store
    context := w.engine.context
    elapsed := w.host.elapsed
    deadline := some (w.host.elapsed + lasting limit)
    journal := w.host.journal }
  let (result, after) := (m.call site.step.instruction.function site).run surroundings
  let changed := w.withStore after.store
  let engine := { changed.engine with context := after.context }
  let host := { changed.host with elapsed := after.elapsed, journal := after.journal }
  set ({ engine, host } : World)
  return result

def storeResult (app : App) (step : Step) (v : Value) : Run Unit := do
  match step.instruction.returnVariable with
  | some name =>
    put name v
    fire app
  | none => return

/-- The steps that a condition guards: those one level deeper, among the following steps that are
deeper at all. -/
def guarded (goal : Goal) (step : Step) : List Nat :=
  let deeper := (goal.steps.drop (step.index + 1)).takeWhile fun s => step.indent < s.indent
  (deeper.filter fun s => s.indent == step.indent + 1).map Step.index

def applyOutput (app : App) (nested : Nested) (site : Site) : Output → Run Control
  | .nothing => return .proceed
  | .value v => do
    storeResult app site.step v
    return .proceed
  | .callGoal call => do
    match ← callGoal app nested call [] with
    | .returned (some v) =>
      storeResult app site.step v
      return .proceed
    | .returned none => return .proceed
    | control => return control
  | .exit levels => return .exit (max levels 1)
  | .returned v => return .returned v
  | .branch taken => do
    modifyStack (·.setOpen (guarded site.goal site.step) taken)
    return .proceed

def limitOf (app : App) (step : Step) : Nat :=
  (step.cancellation.bind Cancellation.timeout).getD app.config.stepTimeout

/-- What takes the place of a step that ran out of time: of its goal's outcome only an exit
counts. -/
def fallBack (app : App) (nested : Nested) (step : Step) : Run Control := do
  match step.cancellation.bind Cancellation.goalToCall with
  | some call =>
    match ← callGoal app nested call [] with
    | .exit levels => return .exit levels
    | _ => return .proceed
  | none => throw (.timeout step.text (limitOf app step))

/-- The module of a step; absent when it is disabled, which skips the step. -/
def moduleOf (step : Step) : Run (Option Module) := do
  match (← get).engine.registry.registry.get step.moduleType with
  | .ok m => return some m
  | .error (.disabled _) => return none
  | .error e => throw (.registry e)

def conclude (app : App) (nested : Nested) (site : Site) : Except Halt Output → Run Control
  | .ok output => do
    note (.succeeded site.goal.name site.step.index)
    fire app
    applyOutput app nested site output
  | .error (.failed e) => do
    let _ ← outcome (fire app)
    throw e
  | .error .timedOut => do
    fire app
    fallBack app nested site.step

def attempt (app : App) (nested : Nested) (site : Site) : Run Control := do
  note (.attempted site.goal.name site.step.index)
  match ← moduleOf site.step with
  | none => return .proceed
  | some m =>
    let function := site.step.instruction.function
    if !m.hasFunction function then
      throw (.functionNotFound site.step.moduleType function
        (Suggestion.nearest? function m.functions))
    conclude app nested site (← callModule m site (limitOf app site.step))

end GoalScript.Run
