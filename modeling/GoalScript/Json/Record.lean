import GoalScript.Json.Basic

namespace GoalScript.Json

abbrev Fields := List (String × Json)

/-- The fields of a record, from an object that names none of them twice or from a list that gives
the first of them in order. Other members are passed over. -/
def fields? (names : List String) : Json → Option Fields
  | .object members =>
    if names.all fun name => (members.filter fun m => m.1 == name).length ≤ 1 then some members
    else none
  | .array items => if items.length ≤ names.length then some (names.zip items) else none
  | _ => none

def Fields.required {α : Type} (fields : Fields) (name : String) (read : Json → Option α) :
    Option α :=
  (fields.lookup name).bind read

def Fields.defaulted {α : Type} (fields : Fields) (name : String) (default : α)
    (read : Json → Option α) : Option α :=
  match fields.lookup name with
  | none => some default
  | some json => read json

def Fields.optional {α : Type} (fields : Fields) (name : String) (read : Json → Option α) :
    Option (Option α) :=
  match fields.lookup name with
  | none => some none
  | some .null => some none
  | some json => (read json).map some

def asText : Json → Option String
  | .text s => some s
  | _ => none

def asBool : Json → Option Bool
  | .bool b => some b
  | _ => none

/-- A natural number below a bound; numbers written with a point or an exponent are refused. -/
def asNat (bound : Nat) : Json → Option Nat
  | .int (.ofNat n) => if n < bound then some n else none
  | _ => none

def asList {α : Type} (read : Json → Option α) : Json → Option (List α)
  | .array items => items.mapM read
  | _ => none

def asJson (json : Json) : Option Json := some json.normal

def asTable {α : Type} (read : Json → Option α) : Json → Option (Table α)
  | .object members =>
    (members.mapM fun (m : String × Json) => (read m.2).map (m.1, ·)).map Table.ofList
  | _ => none

/-- A word of an enumeration, also as the only member of an object, with null for its value. -/
def asWord {α : Type} (ofWord? : String → Option α) : Json → Option α
  | .text s => ofWord? s
  | .object [(s, .null)] => ofWord? s
  | _ => none

def part (json : Json) (name : String) : Json := (json.member? name).getD .null

def textAt? (json : Json) (name : String) : Option String := (json.member? name).bind asText

def textAt (json : Json) (name : String) : String := (json.textAt? name).getD ""

def flagAt (json : Json) (name : String) : Bool := ((json.member? name).bind asBool).getD false

def natAt? (json : Json) (name : String) : Option Nat :=
  (json.member? name).bind (asNat Number.word64)

def natAt (json : Json) (name : String) : Nat := (json.natAt? name).getD 0

def itemsAt (json : Json) (name : String) : List Json :=
  match json.member? name with
  | some (.array items) => items
  | _ => []

def textsAt (json : Json) (name : String) : List String := (json.itemsAt name).filterMap asText

def membersAt (json : Json) (name : String) : List (String × Json) :=
  match json.member? name with
  | some (.object members) => members
  | _ => []

def Fields.present (name : String) (value : Option Json) : Fields :=
  match value with
  | some json => [(name, json)]
  | none => []

def Fields.nonempty (name : String) (items : List Json) : Fields :=
  if items.isEmpty then [] else [(name, .array items)]

end GoalScript.Json
