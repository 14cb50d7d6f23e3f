import GoalScript.CallStack
import GoalScript.Control
import GoalScript.Goal.File
import GoalScript.Module.Basic
import GoalScript.Run.Error
import GoalScript.Value.Tagged

namespace GoalScript

def RegistryError.toJson (e : RegistryError) : Json :=
  .object [("error", .text e.key), ("message", .text e.message)]

def Request.toJson (r : Request) : Json :=
  let answer := match r with
    | .ask _ answerVariable => [("answer_variable", Json.text answerVariable)]
    | _ => []
  .object ([("key", .text r.key), ("message", .text r.message)] ++ answer)

def ErrorKind.word : ErrorKind → String
  | .recoverable => "Recoverable"
  | .interactive => "Interactive"
  | .alreadyHandled => "AlreadyHandled"
  | .aggregate => "Aggregate"
  | .configuration => "Configuration"

namespace EngineError

def origin : EngineError → String
  | .memory _ => "Memory"
  | .registry _ => "Registry"
  | .functionNotFound .. => "FunctionNotFound"
  | .goalNotFound .. => "GoalNotFound"
  | .step _ => "Step"
  | .interactive _ => "Interactive"
  | .timeout .. => "Timeout"
  | .stackOverflow .. => "StackOverflow"
  | .aggregate .. => "Aggregate"
  | .handled _ => "AlreadyHandled"

def toFields (e : EngineError) : Json.Fields :=
  [("error", .text e.origin), ("kind", .text e.kind.word), ("key", .text e.key),
    ("status", .ofOption (e.statusCode.map .ofNat)), ("message", .text e.message)]

def toJson (e : EngineError) : Json := .object e.toFields

end EngineError

namespace CallStack

def Phase.word : Phase → String
  | .executingGoal => "ExecutingGoal"
  | .executingStep => "ExecutingStep"

def toFields (stack : CallStack) : Json.Fields :=
  let top := stack.head?
  [("depth", .ofNat stack.length), ("empty", .bool stack.isEmpty),
    ("hierarchy", .array (stack.goalNames.map .text)),
    ("goal", .ofText? (top.map fun f => f.goal.name)),
    ("step", .ofText? ((top.bind Frame.currentStep?).map Step.text)),
    ("index", .ofOption ((top.bind Frame.stepIndex).map .ofNat)),
    ("phase", .ofText? (top.map fun f => Phase.word f.phase))]

end CallStack

namespace Control

def toJson : Control → Json
  | .proceed => .text "none"
  | .exit levels => .object [("exit", .ofNat levels)]
  | .returned v => .object [("return", Value.optionalTagged v)]

def ofJson : Json → Control
  | .object [("exit", .int n)] => .exit n.toNat
  | .object [("return", .object [("some", v)])] => .returned (some (.ofTagged v))
  | .object [("return", _)] => .returned none
  | _ => .proceed

end Control

def Output.toJson : Output → Json
  | .nothing => .text "none"
  | .value v => .object [("value", v.tagged)]
  | .callGoal call => .object [("call", call.toJson)]
  | .exit levels => .object [("exit", .ofNat levels)]
  | .returned v => .object [("return", Value.optionalTagged v)]
  | .branch taken => .object [("branch", .bool taken)]

def Module.toJson (m : Module) : Json :=
  .object [("name", .text m.name), ("functions", .array (m.functions.map .text))]

end GoalScript
