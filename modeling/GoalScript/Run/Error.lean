import GoalScript.Memory.Error

namespace GoalScript

/-- What only someone outside the run can supply. -/
inductive Request where
  | ask (question answerVariable : String)
  | setting (key : String)
  | fileAccess (path : String)
deriving Repr, DecidableEq, Inhabited

namespace Request

def key : Request → String
  | .ask .. => "Ask"
  | .setting _ => "MissingSetting"
  | .fileAccess _ => "FileAccess"

def message : Request → String
  | .ask question _ => question
  | .setting key => "setting '" ++ key ++ "' is required"
  | .fileAccess path => "access to '" ++ path ++ "' requires permission"

end Request

inductive RegistryError where
  | notRegistered (name : String) (suggestion : Option String)
  | removed (name : String)
  | disabled (name : String)
deriving Repr, DecidableEq, Inhabited

namespace RegistryError

def key : RegistryError → String
  | .notRegistered .. => "ModuleNotRegistered"
  | .removed _ => "ModuleRemoved"
  | .disabled _ => "ModuleDisabled"

def message : RegistryError → String
  | .notRegistered name suggestion =>
    "module '" ++ name ++ "' is not registered" ++ Suggestion.text suggestion
  | .removed name => "module '" ++ name ++ "' has been removed"
  | .disabled name => "module '" ++ name ++ "' is disabled"

end RegistryError

structure StepError where
  message : String
  key : String := "StepError"
  statusCode : Option Nat := none
  cause : Option String := none
deriving Repr, DecidableEq, Inhabited

/-- From a chain of causes, outermost first. -/
def StepError.ofCauses (causes : List String) : StepError :=
  { message := ": ".intercalate causes, cause := causes.head? }

inductive ErrorKind where
  -- Open to handlers and retries.
  | recoverable
  -- Waits for an answer from outside.
  | interactive
  -- Has been through the error events already.
  | alreadyHandled
  -- Failed again while being handled.
  | aggregate
  -- Names a module, function or goal that cannot be found.
  | configuration
deriving Repr, DecidableEq, Inhabited

inductive EngineError where
  | memory (e : MemoryError)
  | registry (e : RegistryError)
  | functionNotFound (moduleName function : String) (suggestion : Option String)
  | goalNotFound (name : String) (suggestion : Option String)
  | step (e : StepError)
  | interactive (request : Request)
  | timeout (step : String) (ms : Nat)
  | stackOverflow (depth : Nat) (trace : String)
  | aggregate (first handler : EngineError)
  | handled (inner : EngineError)
deriving Repr, DecidableEq, Inhabited

namespace EngineError

def kind : EngineError → ErrorKind
  | .memory (.missingSetting _) => .interactive
  | .memory _ => .recoverable
  | .interactive _ => .interactive
  | .step _ => .recoverable
  | .timeout .. => .recoverable
  | .stackOverflow .. => .recoverable
  | .registry _ => .configuration
  | .functionNotFound .. => .configuration
  | .goalNotFound .. => .configuration
  | .aggregate .. => .aggregate
  | .handled _ => .alreadyHandled

def key : EngineError → String
  | .memory e => e.key
  | .registry e => e.key
  | .functionNotFound .. => "FunctionNotFound"
  | .goalNotFound .. => "GoalNotFound"
  | .step e => e.key
  | .interactive request => request.key
  | .timeout .. => "Timeout"
  | .stackOverflow .. => "StackOverflow"
  | .aggregate first _ => first.key
  | .handled inner => inner.key

def statusCode : EngineError → Option Nat
  | .step e => e.statusCode
  | .aggregate first _ => first.statusCode
  | .handled inner => inner.statusCode
  | _ => none

def message : EngineError → String
  | .memory e => e.message
  | .registry e => e.message
  | .functionNotFound moduleName function suggestion =>
    "module '" ++ moduleName ++ "' has no function '" ++ function ++ "'" ++
      Suggestion.text suggestion
  | .goalNotFound name suggestion =>
    "goal '" ++ name ++ "' not found" ++ Suggestion.text suggestion
  | .step e => e.message
  | .interactive request => request.message
  | .timeout text ms => "step '" ++ text ++ "' timed out after " ++ toString ms ++ " ms"
  | .stackOverflow depth trace =>
    "goal call depth exceeded " ++ toString depth ++ ":\n" ++ trace
  | .aggregate first handler =>
    first.message ++ "; while handling it: " ++ handler.message
  | .handled inner => inner.message

def request? : EngineError → Option Request
  | .interactive request => some request
  | .memory (.missingSetting key) => some (.setting key)
  | _ => none

def markHandled : EngineError → EngineError
  | .handled inner => .handled inner
  | e => .handled e

end EngineError

end GoalScript
