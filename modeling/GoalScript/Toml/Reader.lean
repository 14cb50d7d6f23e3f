import GoalScript.Toml.Quoted
import GoalScript.Toml.Scalar
import GoalScript.Toml.Document

namespace GoalScript.Toml

def skipComment : List Char → List Char
  | '#' :: rest => rest.dropWhile isPlain
  | s => s

def skipLines (s : List Char) : List Char :=
  match s with
  | [] => []
  | '\r' :: '\n' :: rest => skipLines rest
  | '#' :: rest => skipLines (rest.dropWhile isPlain)
  | c :: rest => if isBlank c || c == '\n' then skipLines rest else c :: rest
termination_by s.length
decreasing_by
  · simp only [List.length_cons]
    omega
  · have := (List.dropWhile_suffix isPlain (l := rest)).length_le
    simp only [List.length_cons]
    omega
  · simp

/-- The lines after this one, of which only blanks and a comment are left. -/
def lineEnd? (s : List Char) : Option (List Char) :=
  match skipComment (skipBlank s) with
  | [] => some []
  | '\n' :: rest => some rest
  | '\r' :: '\n' :: rest => some rest
  | _ => none

def isBareKeyChar (c : Char) : Bool := c.isAlphanum || c == '-' || c == '_'

def readKeyPart : List Char → Option (List Char × List Char)
  | '"' :: rest => readBasic rest
  | '\x27' :: rest => readLiteral rest
  | s =>
    let part := s.takeWhile isBareKeyChar
    if part.isEmpty then none else some (part, s.dropWhile isBareKeyChar)

/-- A key of at most so many parts, separated by points, with blanks around any of them. -/
def readKey : Nat → List Char → Option (List String × List Char)
  | 0, _ => none
  | limit + 1, s => do
    let (part, rest) ← readKeyPart (skipBlank s)
    match skipBlank rest with
    | '.' :: rest =>
      let (parts, rest) ← readKey limit rest
      return (String.ofList part :: parts, rest)
    | rest => return ([String.ofList part], rest)

/-- Keys have at most so many parts, and values are nested so deep. -/
def maxDepth : Nat := 79

def readAssignee (s : List Char) : Option (List String × List Char) := do
  let (key, rest) ← readKey maxDepth s
  let rest ← skip? '=' rest
  return (key, skipBlank rest)

section

variable (ofMoment : String → Json)

mutual

/-- `depth` counts the containers that may still be opened. -/
def readValue (depth : Nat) : Nat → List Char → Option (Json × List Char)
  | 0, _ => none
  | fuel + 1, s =>
    match s with
    | '"' :: _ => (readText s).map fun r => (.text (String.ofList r.1), r.2)
    | '\x27' :: _ => (readText s).map fun r => (.text (String.ofList r.1), r.2)
    | '[' :: rest =>
      if depth == 0 then none
      else (readItems (depth - 1) fuel rest).map fun r => (.array r.1, r.2)
    | '\x7b' :: rest =>
      if depth == 0 then none
      else match skipBlank rest with
        | '\x7d' :: rest => some (.object [], rest)
        | rest => (readMembers (depth - 1) fuel [] rest).map fun r => (r.1.toJson, r.2)
    | _ => readScalar ofMoment s

/-- The items of a list, over any number of lines; a comma may follow the last one. -/
def readItems (depth : Nat) : Nat → List Char → Option (List Json × List Char)
  | 0, _ => none
  | fuel + 1, s =>
    match skipLines s with
    | ']' :: rest => some ([], rest)
    | s => do
      let (item, rest) ← readValue depth fuel s
      match skipLines rest with
      | ',' :: rest =>
        let (items, rest) ← readItems depth fuel rest
        return (item :: items, rest)
      | ']' :: rest => return ([item], rest)
      | _ => none

/-- The members of a table on one line, added to those before. -/
def readMembers (depth : Nat) : Nat → Members → List Char → Option (Members × List Char)
  | 0, _, _ => none
  | fuel + 1, members, s => do
    let (key, rest) ← readAssignee s
    let (json, rest) ← readValue depth fuel rest
    let members ← members.assign json true key
    match skipBlank rest with
    | ',' :: rest => readMembers depth fuel members rest
    | '\x7d' :: rest => return (members, rest)
    | _ => none

end

def readHeader (doc : Document) (isElement : Bool) (s : List Char) :
    Option (Document × List Char) := do
  let (path, rest) ← readKey maxDepth s
  let rest ← skip? ']' rest
  let rest ← if isElement then skip? ']' rest else some rest
  let rest ← lineEnd? rest
  return (← doc.openHeader path isElement, rest)

def readAssignment (doc : Document) (s : List Char) : Option (Document × List Char) := do
  let (key, rest) ← readAssignee s
  let (json, rest) ← readValue ofMoment maxDepth (2 * rest.length + 2) rest
  let rest ← lineEnd? rest
  return (← doc.assign key json, rest)

/-- Each line passes a character at least. -/
def readLines : Nat → Document → List Char → Option Document
  | 0, _, _ => none
  | fuel + 1, doc, s =>
    match skipLines s with
    | [] => some doc
    | '[' :: '[' :: rest => do
      let (doc, rest) ← readHeader doc true rest
      readLines fuel doc rest
    | '[' :: rest => do
      let (doc, rest) ← readHeader doc false rest
      readLines fuel doc rest
    | s => do
      let (doc, rest) ← readAssignment ofMoment doc s
      readLines fuel doc rest

/-- The data of a document; `ofMoment` says what stands for a date or a time. -/
def read (s : List Char) : Option Json :=
  let s := match s with
    | '\ufeff' :: rest => rest
    | _ => s
  (readLines ofMoment (s.length + 1) {} s).map fun doc => doc.root.toJson

end

end GoalScript.Toml
