import GoalScript.Json.Basic
import GoalScript.Number.Layout

namespace GoalScript.Json

def hexDigit (n : Nat) : Char := Nat.digitChar (n % 16)

def escape (c : Char) : List Char :=
  if c == '"' then ['\\', '"']
  else if c == '\\' then ['\\', '\\']
  else if c == '\x08' then ['\\', 'b']
  else if c == '\t' then ['\\', 't']
  else if c == '\n' then ['\\', 'n']
  else if c == '\x0c' then ['\\', 'f']
  else if c == '\r' then ['\\', 'r']
  else if c.toNat < 32 then ['\\', 'u', '0', '0', hexDigit (c.toNat / 16), hexDigit c.toNat]
  else [c]

def quoted (s : String) : String := String.ofList ('"' :: s.toList.flatMap escape ++ ['"'])

def scalarText : Json → String
  | .null => "null"
  | .bool b => if b then "true" else "false"
  | .int i => toString i
  | .float x => Number.jsonText x
  | .text s => quoted s
  | _ => ""

def opened : String := "\x7b"

def closed : String := "\x7d"

mutual

def compact : Json → String
  | .array items => "[" ++ ",".intercalate (compactItems items) ++ "]"
  | .object members => opened ++ ",".intercalate (compactMembers members) ++ closed
  | json => scalarText json

def compactItems : List Json → List String
  | [] => []
  | json :: rest => compact json :: compactItems rest

def compactMembers : List (String × Json) → List String
  | [] => []
  | (name, json) :: rest => (quoted name ++ ":" ++ compact json) :: compactMembers rest

end

def indentation (depth : Nat) : String := String.ofList (List.replicate (2 * depth) ' ')

/-- The lines of a container that is not empty, indented one level deeper than its brackets. -/
def block (depth : Nat) (left right : String) (lines : List String) : String :=
  left ++ "\n" ++
    ",\n".intercalate (lines.map fun line => indentation (depth + 1) ++ line) ++
    "\n" ++ indentation depth ++ right

mutual

def indented (depth : Nat) : Json → String
  | .array [] => "[]"
  | .array items => block depth "[" "]" (indentedItems (depth + 1) items)
  | .object [] => opened ++ closed
  | .object members => block depth opened closed (indentedMembers (depth + 1) members)
  | json => scalarText json

def indentedItems (depth : Nat) : List Json → List String
  | [] => []
  | json :: rest => indented depth json :: indentedItems depth rest

def indentedMembers (depth : Nat) : List (String × Json) → List String
  | [] => []
  | (name, json) :: rest =>
    (quoted name ++ ": " ++ indented depth json) :: indentedMembers depth rest

end

end GoalScript.Json
