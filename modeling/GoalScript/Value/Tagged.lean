import GoalScript.Json.Record
import GoalScript.Number.Layout
import GoalScript.Value.Json

namespace GoalScript

/-- Whole numbers that every reader of JSON gets right are written as they are; negative zero is
not one of them. -/
def Number.tagged (x : Float) : Json :=
  if isWhole x && x.abs < 9007199254740992.0 && x.toBits != (-0.0 : Float).toBits then
    .int ((truncated? x).getD 0)
  else .object [("num", .text (scientificText x))]

namespace Value

mutual

def tagged : Value → Json
  | .null => .null
  | .bool b => .bool b
  | .number x => Number.tagged x
  | .text s => .text s
  | .list items => .array (taggedItems items)
  | .object members => .object [("obj", .object (taggedMembers members))]
  | .date t => .object [("date", .text t.nanosText)]

def taggedItems : List Value → List Json
  | [] => []
  | v :: rest => tagged v :: taggedItems rest

def taggedMembers : List (String × Value) → List (String × Json)
  | [] => []
  | (name, v) :: rest => (name, tagged v) :: taggedMembers rest

end

def ofTag (tag written : String) : Value :=
  match tag with
  | "num" => .number ((Number.read written.toList).getD 0.0)
  | "date" => ((Calendar.Instant.read written.toList).map Value.date).getD .null
  | _ => .null

mutual

def ofTagged : Json → Value
  | .null => .null
  | .bool b => .bool b
  | .int i => .number (Float.ofInt i)
  | .float x => .number x
  | .text s => .text s
  | .array items => .list (ofTaggedItems items)
  | .object [(_, .object members)] => .object (Table.ofList (ofTaggedMembers members))
  | .object [(tag, .text s)] => ofTag tag s
  | .object [(_, .int i)] => .number (Float.ofInt i)
  | .object [(_, .float x)] => .number x
  | .object _ => .null

def ofTaggedItems : List Json → List Value
  | [] => []
  | json :: rest => ofTagged json :: ofTaggedItems rest

def ofTaggedMembers : List (String × Json) → List (String × Value)
  | [] => []
  | (name, json) :: rest => (name, ofTagged json) :: ofTaggedMembers rest

end

/-- A value that may be absent; null is a value. -/
def optionalTagged : Option Value → Json
  | some v => .object [("some", tagged v)]
  | none => .null

def summary (v : Value) : Json.Fields :=
  let base : Json.Fields := [("type", .text v.typeName), ("truthy", .bool v.isTruthy),
    ("structured", .bool v.isStructured), ("null", .bool v.isNull),
    ("num", .ofOption (v.number?.map Number.tagged)), ("display", .text v.display),
    ("json", .text v.jsonText), ("str", .ofText? v.text?)]
  match v with
  | .number x => base ++ [("format_num", .text (Number.display x))]
  | _ => base

end Value

end GoalScript
