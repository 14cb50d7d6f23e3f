import GoalScript.Json.Basic

namespace GoalScript.Json

inductive Shape where
  | whole
  -- A word of an enumeration, as text or as the name of an only member that is null.
  | word
  | list (item : Shape)
  -- The fields of a record in the order in which a list gives them.
  | record (fields : List (String × Shape))
deriving Inhabited

namespace Shape

def plain (names : List String) : Shape := .record (names.map (·, .whole))

def names : Shape → List String
  | .record fields => fields.map Prod.fst
  | _ => []

/-- Nothing is wanted of a member that a record has no field for. -/
def member? (shape : Shape) (name : String) : Option Shape :=
  match shape with
  | .record fields => fields.lookup name
  | _ => some .whole

def element? (shape : Shape) (index : Nat) : Option Shape :=
  match shape with
  | .list item => some item
  | .record fields => fields[index]?.map Prod.snd
  | _ => some .whole

end Shape

def isEmpty : Json → Bool
  | .array [] => true
  | .object [] => true
  | _ => false

mutual

/-- The wanted part of data from a notation without null, in which a list may be longer than its
record, and an empty list or table stands beside a word. -/
def select (shape : Shape) : Json → Json
  | .array items => .array (selectItems shape 0 items)
  | .object members =>
    match shape, members with
    | .word, [(name, mark)] => .object [(name, if mark.isEmpty then .null else mark)]
    | shape, members => .object (selectMembers shape members)
  | json => json

def selectItems (shape : Shape) (index : Nat) : List Json → List Json
  | [] => []
  | item :: rest =>
    match shape.element? index with
    | some inner => select inner item :: selectItems shape (index + 1) rest
    | none => []

def selectMembers (shape : Shape) : List (String × Json) → List (String × Json)
  | [] => []
  | (name, value) :: rest =>
    match shape.member? name with
    | some inner => (name, select inner value) :: selectMembers shape rest
    | none => selectMembers shape rest

end

end GoalScript.Json
