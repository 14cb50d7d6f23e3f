import GoalScript.Run.Recovery

namespace GoalScript

def ledgerKey (goal : Goal) (step : Step) : String :=
  Digest.sha256 (Digest.bytesOf goal.path ++ Digest.littleEndian 8 step.index ++
    Digest.bytesOf step.text)

def Store.isRecorded (s : Store) (key : String) : Bool :=
  (s.shared.settings.get? Settings.ledgerOwner key).isSome

namespace Run

/-- Whether the step is passed over: it is disabled, no condition has opened it, or it has been
done. -/
def passesOver (w : World) (site : Site) : Bool :=
  site.step.disabled ||
    (0 < site.step.indent && !w.engine.stack.isOpen site.step.index) ||
    (site.step.runOnce && w.store.isRecorded (ledgerKey site.goal site.step))

def recordDone (site : Site) : Run Unit := do
  if site.step.runOnce then
    let key := ledgerKey site.goal site.step
    setSetting Settings.ledgerOwner key (.text (← get).host.now.text)
    note (.recorded key)

/-- A conditional step is closed once it has been tried. -/
def closeStep (step : Step) (w : World) : World :=
  if 0 < step.indent then
    { w with engine := { w.engine with stack := w.engine.stack.setOpen [step.index] false } }
  else w

def performStep (app : App) (nested : Nested) (site : Site) : Run Control := do
  stepEvents app nested site .before
  note (.stepStarted site.goal.name site.step.index)
  let control ← afterwards (attemptAll app site) (closeStep site.step)
  recordDone site
  stepEvents app nested site .after
  runDeferred app nested
  return control

def enterStep (step : Step) (w : World) : World :=
  { w with engine := { w.engine with
    context := w.engine.context.enterScope step.comment
    stack := w.engine.stack.enterStep step.index } }

def leaveStep (before w : World) : World :=
  { w with engine := { w.engine with stack := w.engine.stack.leaveStep } }.setLogLevel
    before.engine.context.logLevel

def runStep (app : App) (nested : Nested) (site : Site) : Run Control := do
  let before ← get
  if passesOver before site then return .proceed
  update (enterStep site.step)
  afterwards (performStep app nested site) (leaveStep before)

end Run

end GoalScript
