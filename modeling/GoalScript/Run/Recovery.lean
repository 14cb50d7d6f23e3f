import GoalScript.Run.Attempt

namespace GoalScript

/-- A handler matches by any one of its marks: a part of the message, the key or the status code. -/
def ErrorHandler.handles (h : ErrorHandler) (e : EngineError) : Bool :=
  h.isCatchAll ||
    h.message.any (fun part =>
      Text.contains (Text.lower e.message.toList) (Text.lower part.toList)) ||
    h.key.any (fun key => key == "*" || Text.sameName key e.key) ||
    (h.statusCode.isSome && h.statusCode == e.statusCode)

def Step.handlerFor? (step : Step) (e : EngineError) : Option ErrorHandler :=
  step.errorHandlers.find? fun h => h.handles e

def ErrorHandler.retryCount (h : ErrorHandler) : Nat := (h.retry.map RetryPolicy.count).getD 0

def ErrorHandler.retryDelay (h : ErrorHandler) : Nat := (h.retry.map RetryPolicy.delay).getD 0

def Step.maxRetries (step : Step) : Nat :=
  (step.errorHandlers.map ErrorHandler.retryCount).foldl max 0

/-- Failures of these kinds are neither asked about nor handled. -/
def ErrorKind.isFinal : ErrorKind → Bool
  | .alreadyHandled => true
  | .aggregate => true
  | .configuration => true
  | .recoverable => false
  | .interactive => false

/-- A retry keeps in mind the failure to report. -/
def Effort.afterRetry (effort : Effort) (reported : EngineError) : Effort :=
  { retries := effort.retries + 1, first := some reported }

namespace Run

/-- Puts an answer where the step will find it. An answer to a request for access may be no. -/
def applyAnswer (app : App) (request : Request) (answer : Value) : Run Bool := do
  match request with
  | .ask _ answerVariable =>
    put answerVariable answer
    fire app
    return true
  | .setting key =>
    setSetting Settings.appOwner key answer.toJson
    return true
  | .fileAccess path =>
    if answer.isTruthy then
      modifyContext (·.grant path)
      return true
    else return false

def intervene (app : App) (e : EngineError) : Run Bool := do
  match e.request? with
  | none => return false
  | some request =>
    match ← ask request with
    | .answer v => applyAnswer app request v
    | .decline => return false
    | .failure text => throw (.aggregate e (.step (.ofCauses [text])))

inductive Remedy where
  | tryAgain
  | giveUp
  | carryOn
deriving Repr, DecidableEq

/-- Follows a handler, which may have its goal called before or after the retries. -/
def handle (app : App) (nested : Nested) (h : ErrorHandler) (e : EngineError) (mayRetry : Bool) :
    Run Remedy := do
  match h.goalToCall with
  | some call =>
    if mayRetry && h.retryBeforeGoal then
      wait h.retryDelay
      return .tryAgain
    let _ ← callGoal app nested call (errorParameters e)
    if mayRetry then
      wait h.retryDelay
      return .tryAgain
    else return if h.retry.isNone then .carryOn else .giveUp
  | none =>
    if mayRetry then
      wait h.retryDelay
      return .tryAgain
    else return if h.ignoreError && h.retry.isNone then .carryOn else .giveUp

/-- Hands the error to the step's error events; when they deal with it the goal goes on. -/
def surrender (app : App) (nested : Nested) (site : Site) (e : EngineError) : Run Control := do
  stepErrorEvents app nested site e
  return .proceed

/-- Where a recovery stands after an attempt and what was done about its failure. -/
inductive Verdict where
  | settled (control : Control)
  -- What the step waited for has been supplied.
  | answered
  | retry (reported : EngineError)
  | surrender (reported : EngineError)
deriving Inhabited

/-- What follows from a failed attempt. When retries run out it is the first failure that is
reported. -/
def judge (app : App) (nested : Nested) (site : Site) (effort : Effort) (e : EngineError) :
    Run Verdict := do
  if e.kind.isFinal then throw e
  if ← intervene app e then return .answered
  let reported := effort.first.getD e
  match site.step.handlerFor? e with
  | none => return .surrender reported
  | some h =>
    match ← handle app nested h e (effort.retries < h.retryCount) with
    | .tryAgain => return .retry reported
    | .carryOn => return .settled .proceed
    | .giveUp => return .surrender reported

def turn (app : App) (nested : Nested) (site : Site) (effort : Effort) : Run Verdict := do
  match ← outcome (attempt app nested site) with
  | .ok control => return .settled control
  | .error e => judge app nested site effort e

def recovery (app : App) (nested : Nested) (site : Site) (effort : Effort) : Run Control := do
  match ← turn app nested site effort with
  | .settled control => return control
  | .answered => await (.recovery app site effort) done
  | .retry reported => await (.recovery app site (effort.afterRetry reported)) done
  | .surrender reported => surrender app nested site reported

def attemptAll (app : App) (site : Site) : Run Control := await (.recovery app site {}) done

end Run

end GoalScript
