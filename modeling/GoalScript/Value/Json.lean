import GoalScript.Json.Reader
import GoalScript.Json.Writer
import GoalScript.Value.Basic

namespace GoalScript.Value

/-- Whole numbers below 9e15 become integers; not-a-number and the infinities become null. -/
def numberToJson (x : Float) : Json :=
  if Number.isWhole x && x.abs < 9.0e15 then .int ((Number.truncated? x).getD 0)
  else if Number.isFinite x then .float x
  else .null

mutual

def toJson : Value → Json
  | .null => .null
  | .bool b => .bool b
  | .number x => numberToJson x
  | .text s => .text s
  | .list items => .array (itemsToJson items)
  | .object members => .object (membersToJson members)
  | .date t => .text t.text

def itemsToJson : List Value → List Json
  | [] => []
  | v :: rest => toJson v :: itemsToJson rest

def membersToJson : List (String × Value) → List (String × Json)
  | [] => []
  | (name, v) :: rest => (name, toJson v) :: membersToJson rest

end

mutual

def ofJson : Json → Value
  | .null => .null
  | .bool b => .bool b
  | .int i => .number (Float.ofInt i)
  | .float x => .number x
  | .text s => .text s
  | .array items => .list (itemsOfJson items)
  | .object members => .object (Table.ofList (membersOfJson members))

def itemsOfJson : List Json → List Value
  | [] => []
  | json :: rest => ofJson json :: itemsOfJson rest

def membersOfJson : List (String × Json) → List (String × Value)
  | [] => []
  | (name, json) :: rest => (name, ofJson json) :: membersOfJson rest

end

def jsonText (v : Value) : String := v.toJson.compact

def display : Value → String
  | .null => ""
  | .bool b => if b then "true" else "false"
  | .number x => Number.display x
  | .text s => s
  | .date t => t.text
  | v => v.jsonText

def isBracketed (s : List Char) : Bool :=
  (s.head? == some '\x7b' && s.getLast? == some '\x7d') ||
    (s.head? == some '[' && s.getLast? == some ']')

def ofLiteral? (s : String) : Option Value :=
  let trimmed := Text.trim s.toList
  if isBracketed trimmed then (Json.read trimmed).map ofJson else none

/-- A text that spells out a list or an object is stored as that. -/
def structured (v : Value) : Value :=
  match v with
  | .text s => (ofLiteral? s).getD v
  | _ => v

end GoalScript.Value
