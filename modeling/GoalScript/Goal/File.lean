import GoalScript.Goal.Library
import GoalScript.Json.Record
import GoalScript.Json.Shape

namespace GoalScript

open Json

namespace GoalCall

def toJson (call : GoalCall) : Json :=
  .object [("name", .text call.name), ("parameters", .object call.parameters)]

def shape : Shape := .plain ["name", "parameters"]

def ofJson? (json : Json) : Option GoalCall := do
  let f ← fields? shape.names json
  return {
    name := ← f.required "name" asText
    parameters := ← f.defaulted "parameters" [] (asTable asJson) }

end GoalCall

namespace Injection

def toJson (i : Injection) : Json :=
  .object [("module_type", .text i.moduleType), ("implementation", .text i.implementation)]

def shape : Shape := .plain ["module_type", "implementation"]

def ofJson? (json : Json) : Option Injection := do
  let f ← fields? shape.names json
  return {
    moduleType := ← f.required "module_type" asText
    implementation := ← f.required "implementation" asText }

end Injection

namespace Parameter

def toJson (p : Parameter) : Json := .object [("name", .text p.name), ("value", p.value)]

def shape : Shape := .plain ["name", "value"]

def ofJson? (json : Json) : Option Parameter := do
  let f ← fields? shape.names json
  return { name := ← f.required "name" asText, value := ← f.required "value" asJson }

end Parameter

namespace Instruction

def toJson (i : Instruction) : Json :=
  .object ([("function", .text i.function),
      ("parameters", .array (i.parameters.map Parameter.toJson))] ++
    Fields.present "return_variable" (i.returnVariable.map .text))

def shape : Shape :=
  .record [("function", .whole), ("parameters", .list Parameter.shape),
    ("return_variable", .whole)]

def ofJson? (json : Json) : Option Instruction := do
  let f ← fields? shape.names json
  return {
    function := ← f.required "function" asText
    parameters := ← f.defaulted "parameters" [] (asList Parameter.ofJson?)
    returnVariable := ← f.optional "return_variable" asText }

end Instruction

namespace RetryPolicy

def toJson (r : RetryPolicy) : Json :=
  .object [("count", .ofNat r.count), ("delay_ms", .ofNat r.delay)]

def shape : Shape := .plain ["count", "delay_ms"]

def ofJson? (json : Json) : Option RetryPolicy := do
  let f ← fields? shape.names json
  return {
    count := ← f.required "count" (asNat Number.word32)
    delay := ← f.defaulted "delay_ms" 0 (asNat Number.word64) }

end RetryPolicy

namespace ErrorHandler

def toJson (h : ErrorHandler) : Json :=
  .object (Fields.present "message" (h.message.map .text) ++
    Fields.present "key" (h.key.map .text) ++
    Fields.present "status_code" (h.statusCode.map .ofNat) ++
    [("ignore_error", .bool h.ignoreError)] ++
    Fields.present "goal_to_call" (h.goalToCall.map GoalCall.toJson) ++
    Fields.present "retry" (h.retry.map RetryPolicy.toJson) ++
    [("retry_before_goal", .bool h.retryBeforeGoal)])

def shape : Shape :=
  .record [("message", .whole), ("key", .whole), ("status_code", .whole), ("ignore_error", .whole),
    ("goal_to_call", GoalCall.shape), ("retry", RetryPolicy.shape),
    ("retry_before_goal", .whole)]

def ofJson? (json : Json) : Option ErrorHandler := do
  let f ← fields? shape.names json
  return {
    message := ← f.optional "message" asText
    key := ← f.optional "key" asText
    statusCode := ← f.optional "status_code" (asNat Number.word16)
    ignoreError := ← f.defaulted "ignore_error" false asBool
    goalToCall := ← f.optional "goal_to_call" GoalCall.ofJson?
    retry := ← f.optional "retry" RetryPolicy.ofJson?
    retryBeforeGoal := ← f.defaulted "retry_before_goal" false asBool }

end ErrorHandler

namespace Cancellation

def toJson (c : Cancellation) : Json :=
  .object (Fields.present "timeout_ms" (c.timeout.map .ofNat) ++
    Fields.present "goal_to_call" (c.goalToCall.map GoalCall.toJson))

def shape : Shape :=
  .record [("timeout_ms", .whole), ("goal_to_call", GoalCall.shape)]

def ofJson? (json : Json) : Option Cancellation := do
  let f ← fields? shape.names json
  return {
    timeout := ← f.optional "timeout_ms" (asNat Number.word64)
    goalToCall := ← f.optional "goal_to_call" GoalCall.ofJson? }

end Cancellation

namespace Step

def toJson (s : Step) : Json :=
  .object ([("index", .ofNat s.index), ("text", .text s.text),
      ("module_type", .text s.moduleType), ("instruction", s.instruction.toJson)] ++
    Fields.present "comment" (s.comment.map .text) ++
    [("run_once", .bool s.runOnce), ("disabled", .bool s.disabled)] ++
    Fields.nonempty "error_handlers" (s.errorHandlers.map ErrorHandler.toJson) ++
    Fields.present "cancellation" (s.cancellation.map Cancellation.toJson) ++
    [("indent", .ofNat s.indent)])

def shape : Shape :=
  .record [("index", .whole), ("text", .whole), ("module_type", .whole),
    ("instruction", Instruction.shape), ("comment", .whole), ("run_once", .whole),
    ("disabled", .whole), ("error_handlers", .list ErrorHandler.shape),
    ("cancellation", Cancellation.shape), ("indent", .whole)]

def ofJson? (json : Json) : Option Step := do
  let f ← fields? shape.names json
  return {
    index := ← f.defaulted "index" 0 (asNat Number.word64)
    text := ← f.defaulted "text" "" asText
    moduleType := ← f.required "module_type" asText
    instruction := ← f.required "instruction" Instruction.ofJson?
    comment := ← f.optional "comment" asText
    runOnce := ← f.defaulted "run_once" false asBool
    disabled := ← f.defaulted "disabled" false asBool
    errorHandlers := ← f.defaulted "error_handlers" [] (asList ErrorHandler.ofJson?)
    cancellation := ← f.optional "cancellation" Cancellation.ofJson?
    indent := ← f.defaulted "indent" 0 (asNat Number.word64) }

end Step

namespace Goal

def toJson (g : Goal) : Json :=
  .object ([("name", .text g.name), ("steps", .array (g.steps.map Step.toJson))] ++
    Fields.present "parent_goal" (g.parentGoal.map .text) ++
    Fields.present "comment" (g.comment.map .text) ++
    [("path", .text g.path), ("is_setup", .bool g.isSetup)] ++
    Fields.nonempty "injections" (g.injections.map Injection.toJson))

def shape : Shape :=
  .record [("name", .whole), ("steps", .list Step.shape), ("parent_goal", .whole),
    ("comment", .whole), ("path", .whole), ("is_setup", .whole),
    ("injections", .list Injection.shape)]

def ofJson? (json : Json) : Option Goal := do
  let f ← fields? shape.names json
  return {
    name := ← f.required "name" asText
    steps := ← f.defaulted "steps" [] (asList Step.ofJson?)
    parentGoal := ← f.optional "parent_goal" asText
    comment := ← f.optional "comment" asText
    path := ← f.defaulted "path" "" asText
    isSetup := ← f.defaulted "is_setup" false asBool
    injections := ← f.defaulted "injections" [] (asList Injection.ofJson?) }

end Goal

namespace EventBinding

def toJson (b : EventBinding) : Json :=
  .object ([("scope", .text b.scope.word), ("event_type", .text b.eventType.word),
      ("goal_to_call", b.goalToCall.toJson)] ++
    Fields.present "goal_filter" (b.goalFilter.map .text) ++
    Fields.present "step_filter" (b.stepFilter.map .text) ++
    Fields.present "key_filter" (b.keyFilter.map .text))

def shape : Shape :=
  .record [("scope", .word), ("event_type", .word), ("goal_to_call", GoalCall.shape),
    ("goal_filter", .whole), ("step_filter", .whole), ("key_filter", .whole)]

def ofJson? (json : Json) : Option EventBinding := do
  let f ← fields? shape.names json
  return {
    scope := ← f.required "scope" (asWord EventScope.ofWord?)
    eventType := ← f.required "event_type" (asWord EventType.ofWord?)
    goalToCall := ← f.required "goal_to_call" GoalCall.ofJson?
    goalFilter := ← f.optional "goal_filter" asText
    stepFilter := ← f.optional "step_filter" asText
    keyFilter := ← f.optional "key_filter" asText }

end EventBinding

namespace LibraryFile

/-- The default goal is written as null when there is none. -/
def toJson (file : LibraryFile) : Json :=
  .object [("goals", .array (file.goals.map Goal.toJson)),
    ("events", .array (file.events.map EventBinding.toJson)),
    ("default_goal", (file.defaultGoal.map .text).getD .null)]

def shape : Shape :=
  .record [("goals", .list Goal.shape), ("events", .list EventBinding.shape),
    ("default_goal", .whole)]

def ofJson? (json : Json) : Option LibraryFile := do
  let f ← fields? shape.names json
  return {
    goals := ← f.defaulted "goals" [] (asList Goal.ofJson?)
    events := ← f.defaulted "events" [] (asList EventBinding.ofJson?)
    defaultGoal := ← f.optional "default_goal" asText }

end LibraryFile

def Library.toJson (lib : Library) : Json :=
  .object [("goals", .array (lib.goalsByName.map Goal.toJson)),
    ("default", .ofText? lib.defaultGoal), ("events", .array (lib.events.map EventBinding.toJson))]

end GoalScript
