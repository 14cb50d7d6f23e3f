import GoalScript.Number.Reader

namespace GoalScript.Command

inductive Topic where
  | program
  | run
  | goals
  | help
deriving Repr, Inhabited, DecidableEq

def Topic.ofWord? : String → Option Topic
  | "run" => some .run
  | "goals" => some .goals
  | "help" => some .help
  | _ => none

def Topic.takesFile : Topic → Bool
  | .run => true
  | .goals => true
  | _ => false

inductive Refusal where
  | help (topic : Topic)
  | misuse
deriving Repr, Inhabited, DecidableEq

inductive Setting where
  | config
  | logLevel
  | goal
  | variable
  | stepTimeout
deriving Repr, Inhabited, DecidableEq

inductive Flag where
  | buildMode
  | help
deriving Repr, Inhabited, DecidableEq

structure Arguments where
  config : Option String := none
  logLevel : Option String := none
  file : Option String := none
  goals : List String := []
  assignments : List String := []
  buildMode : Bool := false
  stepTimeout : Option Nat := none
deriving Repr, Inhabited, DecidableEq

namespace Arguments

def fresh? {α : Type} (old : Option α) (new : Option α) : Option α :=
  if old.isSome then none else new

def path? (s : String) : Option String := if s == "" then none else some s

/-- A number of 64 bits; a plus sign may stand before it. -/
def number? (s : String) : Option Nat :=
  let digits := match s.toList with
    | '+' :: rest => rest
    | digits => digits
  (Number.readNat digits).filter (· < Number.word64)

/-- Sets an option; only goals and variables may be given more than once. -/
def set? (a : Arguments) (setting : Setting) (value : String) : Option Arguments :=
  match setting with
  | .config => (fresh? a.config (path? value)).map fun path => { a with config := path }
  | .logLevel => (fresh? a.logLevel (some value)).map fun level => { a with logLevel := level }
  | .goal => some { a with goals := a.goals ++ [value] }
  | .variable => some { a with assignments := a.assignments ++ [value] }
  | .stepTimeout =>
    (fresh? a.stepTimeout (number? value)).map fun ms => { a with stepTimeout := ms }

def setFile? (a : Arguments) (value : String) : Option Arguments :=
  (fresh? a.file (path? value)).map fun path => { a with file := path }

end Arguments

inductive Word where
  | plain
  | separator
  | flag (f : Flag)
  | setting (s : Setting) (value : Option String)
  | unknown
deriving Repr, Inhabited, DecidableEq

namespace Word

def settingNamed? (topic : Topic) (name : String) : Option Setting :=
  if name == "config" then some .config
  else if name == "log-level" then some .logLevel
  else if topic != .run then none
  else if name == "goal" then some .goal
  else if name == "var" then some .variable
  else if name == "step-timeout-ms" then some .stepTimeout
  else none

def flagNamed? (topic : Topic) (name : String) : Option Flag :=
  if name == "help" then some .help
  else if topic == .run && name == "build-mode" then some .buildMode
  else none

/-- A word after two hyphens; flags take no value. -/
def ofLong (topic : Topic) (s : List Char) : Word :=
  let name := String.ofList (s.takeWhile (· != '='))
  let value := match s.dropWhile (· != '=') with
    | [] => none
    | _ :: rest => some (String.ofList rest)
  match settingNamed? topic name with
  | some named => .setting named value
  | none =>
    match flagNamed? topic name with
    | some named => if value.isSome then .unknown else .flag named
    | none => .unknown

def ofShort (topic : Topic) : List Char → Word
  | 'h' :: _ => .flag .help
  | 'g' :: rest =>
    if topic != .run then .unknown
    else match rest with
      | [] => .setting .goal none
      | '=' :: value => .setting .goal (some (String.ofList value))
      | value => .setting .goal (some (String.ofList value))
  | _ => .unknown

def classify (topic : Topic) (word : String) : Word :=
  match word.toList with
  | ['-', '-'] => .separator
  | '-' :: '-' :: rest => ofLong topic rest
  | ['-'] => .plain
  | '-' :: rest => ofShort topic rest
  | _ => .plain

end Word

def orMisuse {α : Type} (a : Option α) : Except Refusal α :=
  match a with
  | some a => .ok a
  | none => .error .misuse

/-- Takes options, and a file where the topic has one, up to the first word that is neither. -/
def collect (topic : Topic) (a : Arguments) :
    List String → Except Refusal (Arguments × List String)
  | [] => .ok (a, [])
  | word :: rest =>
    match Word.classify topic word with
    | .plain =>
      if topic.takesFile then do collect topic (← orMisuse (a.setFile? word)) rest
      else .ok (a, word :: rest)
    | .separator =>
      if topic.takesFile then do return (← orMisuse (rest.foldlM Arguments.setFile? a), [])
      else .error .misuse
    | .flag .help => .error (.help topic)
    | .flag .buildMode =>
      if a.buildMode then .error .misuse else collect topic { a with buildMode := true } rest
    | .setting setting (some value) => do collect topic (← orMisuse (a.set? setting value)) rest
    | .setting setting none =>
      match rest with
      | value :: rest =>
        if Word.classify topic value = .plain then do
          collect topic (← orMisuse (a.set? setting value)) rest
        else .error .misuse
      | [] => .error .misuse
    | .unknown => .error .misuse

inductive Action where
  | run (file : String) (goals assignments : List String) (buildMode : Bool)
    (stepTimeout : Option Nat)
  | list (file : String)
deriving Repr, Inhabited, DecidableEq

structure Invocation where
  config : Option String
  logLevel : Option String
  action : Action
deriving Repr, Inhabited, DecidableEq

def Arguments.action? (a : Arguments) (topic : Topic) : Option Action :=
  match topic with
  | .run => a.file.map fun file => .run file a.goals a.assignments a.buildMode a.stepTimeout
  | .goals => a.file.map .list
  | _ => none

/-- Help is about one command at most. -/
def helpOn : List String → Refusal
  | [] => .help .program
  | [word] => ((Topic.ofWord? word).map Refusal.help).getD .misuse
  | _ => .misuse

/-- Options for every command may stand before or after it; those after it win. -/
def Invocation.parse (arguments : List String) : Except Refusal Invocation := do
  let (before, rest) ← collect .program {} arguments
  match rest with
  | [] => throw .misuse
  | word :: rest =>
    match Topic.ofWord? word with
    | none => throw .misuse
    | some .help => throw (helpOn rest)
    | some topic =>
      let (after, _) ← collect topic {} rest
      return {
        config := after.config.or before.config
        logLevel := after.logLevel.or before.logLevel
        action := ← orMisuse (after.action? topic) }

end GoalScript.Command
