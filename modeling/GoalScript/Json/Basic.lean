import GoalScript.Number.Binary
import GoalScript.Table

namespace GoalScript

/-- Integers that fit 64 bits, signed or unsigned, stay exact; all other numbers are binary
fractions. -/
inductive Json where
  | null
  | bool (b : Bool)
  | int (i : Int)
  | float (x : Float)
  | text (s : String)
  | array (items : List Json)
  | object (members : List (String × Json))
deriving Repr, Inhabited, BEq

namespace Json

/-- The member of an object; the last one counts. -/
def member? (json : Json) (name : String) : Option Json :=
  match json with
  | .object members => (members.reverse.lookup name)
  | _ => none

mutual

/-- Members sorted by name, the last of a repeated name counting, at every depth; null stands for
what is no finite number. -/
def normal : Json → Json
  | .float x => if Number.isFinite x then .float x else .null
  | .array items => .array (normalItems items)
  | .object members => .object (Table.ofList (normalMembers members))
  | json => json

def normalItems : List Json → List Json
  | [] => []
  | json :: rest => normal json :: normalItems rest

def normalMembers : List (String × Json) → List (String × Json)
  | [] => []
  | (name, json) :: rest => (name, normal json) :: normalMembers rest

end

def ofNat (n : Nat) : Json := .int n

def ofOption (json : Option Json) : Json := json.getD .null

def ofText? (s : Option String) : Json := ofOption (s.map .text)

end Json

end GoalScript
