import GoalScript.Value.Basic

namespace GoalScript

/-- Positions count from 1. A bare word is a key of the container or names a variable. -/
inductive Index where
  | position (n : Nat)
  | key (k : String)
  | lookup (word : String)
deriving Repr, Inhabited, DecidableEq

inductive Argument where
  | literal (v : Value)
  | reference (expr : String)
deriving Repr, Inhabited

inductive Segment where
  | property (name : String)
  | index (i : Index)
  | method (name : String) (args : List Argument)
  | query (path : String)
deriving Repr, Inhabited

inductive Operator where
  | add | sub | mul | div
deriving Repr, Inhabited, DecidableEq

def Operator.symbol : Operator → Char
  | .add => '+'
  | .sub => '-'
  | .mul => '*'
  | .div => '/'

def Operator.ofChar? : Char → Option Operator
  | '+' => some .add
  | '-' => some .sub
  | '*' => some .mul
  | '/' => some .div
  | _ => none

/-- Durations are in milliseconds. -/
inductive Operand where
  | number (x : Float)
  | duration (ms : Int)
  | reference (expr : String)
deriving Repr, Inhabited

structure Arithmetic where
  op : Operator
  operand : Operand
deriving Repr, Inhabited

/-- `expr` is the expression without its delimiters. -/
structure Plan where
  expr : String
  root : String
  segments : List Segment := []
  arithmetic : Option Arithmetic := none
deriving Repr, Inhabited

end GoalScript
