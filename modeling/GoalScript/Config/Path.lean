import GoalScript.Json.Basic
import GoalScript.Number.Reader
import GoalScript.Text.Blank
import GoalScript.Text.Case

namespace GoalScript

/-- A negative position counts from the end. -/
inductive PathPart where
  | name (s : String)
  | index (i : Int)
deriving Repr, Inhabited, DecidableEq

namespace PathPart

def isNameChar (c : Char) : Bool := c.isAlphanum || c == ' ' || c == '_' || c == '-'

def index? (s : List Char) : Option PathPart :=
  ((Number.readInt (Text.trimWhile (fun c => c == ' ' || c == '\t') s)).filter
    Number.isSigned64).map .index

def following : List Char → Option (List PathPart)
  | [] => some []
  | '.' :: rest =>
    let name := rest.takeWhile isNameChar
    if name.isEmpty then none
    else (following (rest.dropWhile isNameChar)).map (.name (String.ofList name) :: ·)
  | '[' :: rest =>
    match _h : rest.dropWhile (· != ']') with
    | _ :: after => do return (← index? (rest.takeWhile (· != ']'))) :: (← following after)
    | [] => none
  | _ => none
termination_by s => s.length
decreasing_by
  · have := (List.dropWhile_suffix isNameChar (l := rest)).length_le
    simp; omega
  · have := (List.dropWhile_suffix (· != ']') (l := rest)).length_le
    simp_all; omega

def ofKey (key : String) : List PathPart := (following ('.' :: key.toList)).getD [.name key]

end PathPart

namespace Layer

def setMember (key : String) (value : Json) : List (String × Json) → List (String × Json)
  | [] => [(key, value)]
  | (k, v) :: rest => if k = key then (k, value) :: rest else (k, v) :: setMember key value rest

def membersOf : Json → List (String × Json)
  | .object members => members
  | _ => []

def itemsOf : Json → List Json
  | .array items => items
  | _ => []

def alterMember (root : Json) (name : String) (f : Option Json → Json) : Json :=
  let key := Text.lowercase name
  .object (setMember key (f ((membersOf root).lookup key)) (membersOf root))

/-- Changes the element at a position; the list grows with nulls until it has one. -/
def alterItem (root : Json) (i : Int) (f : Json → Json) : Json :=
  let items := itemsOf root
  let n := items.length
  let nulls (count : Nat) : List Json := List.replicate count .null
  if 0 ≤ i then .array ((items ++ nulls (i.toNat + 1 - n)).modify i.toNat f)
  else .array ((nulls (i.natAbs - n) ++ items).modify (n - i.natAbs) f)

mutual

/-- Puts a value under a name: tables merge, all else is replaced. -/
def put (root : Json) (name : String) : Json → Json
  | .object members => alterMember root name fun old => putAll (old.getD (.object [])) members
  | value => alterMember root name fun _ => value

def putAll (root : Json) : List (String × Json) → Json
  | [] => root
  | (name, value) :: rest => putAll (put root name value) rest

end

/-- Puts a value at a place. An element is replaced even by a table. -/
def putAt (root value : Json) : List PathPart → Json
  | [] => root
  | [.name name] => put root name value
  | [.index i] => alterItem root i fun _ => value
  | .name name :: path => alterMember root name fun old => putAt (old.getD .null) value path
  | .index i :: path => alterItem root i fun old => putAt old value path

end Layer

end GoalScript
