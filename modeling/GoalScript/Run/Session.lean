import GoalScript.Run.Task

namespace GoalScript.Run

def resultOf : Control → Option Value
  | .returned v => v
  | _ => none

/-- Runs goals one after the other; the result is the last one's. -/
def runAll (app : App) (result : Option Value) : List Goal → Run (Option Value)
  | [] => return result
  | goal :: rest => do
    let control ← runGoal app { goal }
    runAll app (resultOf control) rest

/-- Runs goals by name, or the library's default goal if none are named. -/
def session (app : App) (names : List String) : Run (Option Value) := do
  let names := if names.isEmpty then app.library.defaultGoal.toList else names
  let goals ← names.mapM (findGoal app)
  let _ ← runAll app none app.library.setupGoals
  appEvents app (runGoal app) .startOfApp
  let result ← runAll app none goals
  appEvents app (runGoal app) .endOfApp
  runDeferred app (runGoal app)
  return result

end GoalScript.Run
