import GoalScript.Command.Help
import GoalScript.Config.Load
import GoalScript.Goal.Load
import GoalScript.Run.Session

namespace GoalScript

namespace Command

inductive Failure where
  | config (e : ConfigError)
  | goalFile (e : GoalFileError)
  | assignment (text : String)
  | engine (e : EngineError)
deriving Repr, Inhabited

def Failure.message : Failure → String
  | .config e => e.message
  | .goalFile e => e.message
  | .assignment text => "expected name=value, got '" ++ text ++ "'"
  | .engine e => e.message

/-- What the program shows in the end, and for how many milliseconds it has waited. -/
structure Outcome where
  exitCode : Nat := 0
  output : String := ""
  errors : String := ""
  waited : Nat := 0
deriving Repr, Inhabited, DecidableEq

def lines (ls : List String) : String := String.join (ls.map (· ++ "\n"))

def Outcome.ofFailure (f : Failure) : Outcome :=
  { exitCode := 1, errors := lines ["Error: " ++ f.message] }

/-- Misuse is told apart by its exit code alone. -/
def Outcome.ofRefusal : Refusal → Outcome
  | .help topic => { output := lines topic.helpText }
  | .misuse => { exitCode := 2 }

def assignment? (text : String) : Option (String × Value) :=
  let s := text.toList
  match s.dropWhile (· != '=') with
  | [] => none
  | _ :: value =>
    let name := String.ofList (Text.trim (s.takeWhile (· != '=')))
    some (name, ((Json.read value).map Value.ofJson).getD (.text (String.ofList value)))

def assign (w : World) (text : String) : Except Failure World :=
  match assignment? text with
  | none => .error (.assignment text)
  | some (name, value) =>
    match w.store.put name value with
    | .ok s => .ok (w.withStore s)
    | .error e => .error (.engine (.memory e))

def shown (v : Value) : String := if v.isStructured then v.toJson.indented 0 else v.display

def startWorld (config : EngineConfig) (now : Calendar.Instant) : World :=
  { engine := .start 0 ⟨.withBuiltins, 0⟩ config.buildMode
    host := { now, freshStamp := 1 } }

def runGoals (config : EngineConfig) (now : Calendar.Instant) (library : Library)
    (goals assignments : List String) : Outcome :=
  match assignments.foldlM assign (startWorld config now) with
  | .error failure => .ofFailure failure
  | .ok start =>
    let (result, w) := (Run.session { library, config } goals).run start
    let outcome : Outcome := match result with
      | .ok none => {}
      | .ok (some v) => { output := lines [shown v] }
      | .error e => .ofFailure (.engine e)
    { outcome with waited := w.host.elapsed }

def describe (library : Library) (goal : Goal) : String :=
  let isDefault := library.defaultGoal.any (Text.sameName · goal.name)
  let marks := (if goal.isSetup then ["setup"] else []) ++ (if isDefault then ["default"] else [])
  let marks := if marks.isEmpty then "" else " [" ++ ", ".intercalate marks ++ "]"
  goal.name ++ " (" ++ toString goal.steps.length ++ " steps)" ++ marks

def listGoals (library : Library) : Outcome :=
  { output := lines (library.goalsByName.map (describe library)) }

def Invocation.configRequest (i : Invocation) (environment : Table String) : ConfigRequest :=
  let request : ConfigRequest :=
    { path := i.config, environment := some environment, logLevel := i.logLevel }
  match i.action with
  | .run _ _ _ buildMode stepTimeout =>
    { request with stepTimeout, buildMode := if buildMode then some true else none }
  | .list _ => request

def Action.file : Action → String
  | .run file .. => file
  | .list file => file

section

variable {m : Type → Type} [Monad m] (readFile : FileReader m)

/-- The configuration is loaded first, then the goal file. -/
def Invocation.execute (i : Invocation) (environment : Table String) (now : Calendar.Instant) :
    m Outcome := do
  match ← Config.load readFile (i.configRequest environment) with
  | .error e => return .ofFailure (.config e)
  | .ok config =>
    match ← Library.load readFile i.action.file with
    | .error e => return .ofFailure (.goalFile e)
    | .ok library =>
      match i.action with
      | .run _ goals assignments .. =>
        return runGoals config.engine now library goals assignments
      | .list _ => return listGoals library

def program (environment : Table String) (now : Calendar.Instant) (arguments : List String) :
    m Outcome :=
  match Invocation.parse arguments with
  | .error refusal => pure (.ofRefusal refusal)
  | .ok i => i.execute readFile environment now

end

end Command

end GoalScript
