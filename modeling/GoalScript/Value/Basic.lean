import GoalScript.Calendar.Instant
import GoalScript.Number.Reader
import GoalScript.Table
import GoalScript.Text.Blank
import GoalScript.Text.Case

namespace GoalScript

open Calendar (Instant)

/-- The members of an object are sorted by name. -/
inductive Value where
  | null
  | bool (b : Bool)
  | number (x : Float)
  | text (s : String)
  | list (items : List Value)
  | object (members : List (String × Value))
  | date (t : Instant)
deriving Repr, Inhabited

namespace Value

def typeName : Value → String
  | .null => "null"
  | .bool _ => "bool"
  | .number _ => "number"
  | .text _ => "string"
  | .list _ => "list"
  | .object _ => "object"
  | .date _ => "datetime"

def isTruthy : Value → Bool
  | .null => false
  | .bool b => b
  | .number x => x != 0.0
  | .text s => !s.isEmpty && !Text.sameName s "false"
  | .list items => !items.isEmpty
  | .object members => !members.isEmpty
  | .date _ => true

def isNull : Value → Bool
  | .null => true
  | _ => false

def isStructured : Value → Bool
  | .list _ => true
  | .object _ => true
  | _ => false

/-- Numbers, numeric texts and truth values count as numbers. -/
def number? : Value → Option Float
  | .number x => some x
  | .text s => Number.read (Text.trim s.toList)
  | .bool b => some (if b then 1.0 else 0.0)
  | _ => none

def text? : Value → Option String
  | .text s => some s
  | _ => none

/-- The member with exactly this name, or else the first whose name is equal up to ASCII case. -/
def findMember? (members : List (String × Value)) (name : String) : Option (String × Value) :=
  (members.find? fun m => m.1 == name).or (members.find? fun m => Text.sameName m.1 name)

def member? (v : Value) (name : String) : Option Value :=
  match v with
  | .object members => (findMember? members name).map Prod.snd
  | _ => none

/-- The elements of a list, or the values of an object in the order of their names. -/
def children : Value → List Value
  | .list items => items
  | .object members => members.map Prod.snd
  | _ => []

mutual

/-- Numbers are compared as numbers, so that not-a-number differs from itself. -/
def same : Value → Value → Bool
  | .null, .null => true
  | .bool a, .bool b => a == b
  | .number x, .number y => x == y
  | .text s, .text t => s == t
  | .list xs, .list ys => sameItems xs ys
  | .object xs, .object ys => sameMembers xs ys
  | .date a, .date b => a == b
  | _, _ => false

def sameItems : List Value → List Value → Bool
  | [], [] => true
  | x :: xs, y :: ys => same x y && sameItems xs ys
  | _, _ => false

def sameMembers : List (String × Value) → List (String × Value) → Bool
  | [], [] => true
  | (k, x) :: xs, (l, y) :: ys => k == l && same x y && sameMembers xs ys
  | _, _ => false

end

end Value

end GoalScript
