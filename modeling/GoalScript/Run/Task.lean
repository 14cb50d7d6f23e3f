import GoalScript.Run.Goal

namespace GoalScript

abbrev Ending (α : Type) := Except EngineError α × World

/-- What carrying out a task amounts to. -/
def Task.program : Task → Run Control
  | .goal app inv => Run.goalRun app (Run.runGoal app) inv
  | .fire app => Run.callBackAll app (Run.runGoal app)
  | .recovery app site effort => Run.recovery app (Run.runGoal app) site effort

namespace Run

/-- Makes the changes of a run one by one, given how its tasks are carried out. -/
def exec {α : Type} (tasks : Task → World → Ending Control) : Run α → World → Ending α
  | done result, w => (result, w)
  | change f next, w => let v := f w; exec tasks (next v) v
  | await task next, w => let (result, v) := tasks task w; exec tasks (next result) v

abbrev Runner := App → Invocation → World → Ending Control

/-- While callbacks run nothing is queued, hence none of them has anything to call back for, as long
as modules leave the in-event flag of the memory alone. `Entry.ends` proves that `run` then agrees
with the steps of the machine, which make these callbacks like all others. -/
def quietly (goal : Runner) : Task → World → Ending Control
  | .goal app inv, w => goal app inv w
  | _, w => (.ok .proceed, w)

def carryOut (goal : Runner) (again : App → Site → Effort → World → Ending Control) :
    Task → World → Ending Control
  | .goal app inv, w => goal app inv w
  | .fire app, w => exec (quietly goal) (callBackAll app (runGoal app)) w
  | .recovery app site effort, w => again app site effort w

def recoverWithin (goal : Runner) (turns : Nat) (app : App) (site : Site) (effort : Effort)
    (w : World) : Ending Control :=
  match turns with
  | 0 => (.ok .proceed, w)
  | turns + 1 =>
    exec (carryOut goal (recoverWithin goal turns)) (recovery app (runGoal app) site effort) w

/-- Each turn but the last one uses up a reply or a retry. -/
def turnsLeft (site : Site) (effort : Effort) (w : World) : Nat :=
  w.host.replies.length + (site.step.maxRetries - effort.retries) + 1

def carryOutWith (goal : Runner) : Task → World → Ending Control :=
  carryOut goal fun app site effort w =>
    recoverWithin goal (turnsLeft site effort w) app site effort w

def goalWithin (room : Nat) : Runner := fun app inv w =>
  match room with
  | 0 => (.error (.stackOverflow app.config.maxCallDepth w.engine.stack.trace), w)
  | room + 1 => exec (carryOutWith (goalWithin room)) (goalRun app (runGoal app) inv) w

/-- Neither the room for goals nor the turns at a step are ever used up. -/
def goalHere : Runner := fun app inv w =>
  goalWithin (app.config.maxCallDepth - w.engine.stack.length) app inv w

def perform : Task → World → Ending Control := carryOutWith goalHere

def run {α : Type} (p : Run α) (w : World) : Ending α := exec perform p w

end Run

end GoalScript
