import GoalScript.Memory.Variable
import GoalScript.Text.Search

namespace GoalScript

inductive LogLevel where
  | trace | debug | info | warn | error
deriving Repr, DecidableEq, Inhabited

namespace LogLevel

def word : LogLevel → String
  | .trace => "TRACE"
  | .debug => "DEBUG"
  | .info => "INFO"
  | .warn => "WARN"
  | .error => "ERROR"

def all : List LogLevel := [.trace, .debug, .info, .warn, .error]

def tag (level : LogLevel) : List Char := Text.lower ("[" ++ level.word ++ "]").toList

def ofComment? (comment : String) : Option LogLevel :=
  let lowered := Text.lower comment.toList
  all.find? fun level => Text.contains lowered level.tag

end LogLevel

structure Context where
  inEvent : Bool := false
  logLevel : Option LogLevel := none
  grants : Names := []
  cache : Table Value := []
  deferred : List PendingEvent := []
deriving Repr, Inhabited

namespace Context

def level (c : Context) : LogLevel := c.logLevel.getD .debug

/-- A comment without a level keeps the current one. -/
def enterScope (c : Context) (comment : Option String) : Context :=
  match comment.bind LogLevel.ofComment? with
  | some level => { c with logLevel := some level }
  | none => c

def grant (c : Context) (path : String) : Context := { c with grants := c.grants.insert path }

def isGranted (c : Context) (path : String) : Bool := c.grants.contains path

def cachePut (c : Context) (key : String) (v : Value) : Context :=
  { c with cache := c.cache.insert key v }

def cacheGet? (c : Context) (key : String) : Option Value := c.cache.get? key

def defer (c : Context) (event : PendingEvent) : Context :=
  { c with deferred := c.deferred ++ [event] }

def reset (_ : Context) : Context := {}

end Context

end GoalScript
