import GoalScript.Table
import GoalScript.Text.Alphabet
import GoalScript.Text.Blank

namespace GoalScript.VariableFile

inductive LineState where
  | plain
  | blank
  | escape
  | double
  | doubleEscape
  | single
  | singleEscape
deriving Repr, Inhabited, DecidableEq

def LineState.next : LineState → Char → LineState
  | .escape, _ => .plain
  | .doubleEscape, _ => .double
  | .singleEscape, _ => .single
  | .double, c => if c == '\\' then .doubleEscape else if c == '"' then .plain else .double
  | .single, c => if c == '\\' then .singleEscape else if c == '\x27' then .plain else .single
  | state, c =>
    if c == '\\' then .escape
    else if c == '"' then .double
    else if c == '\x27' then .single
    else if state == .plain && Text.isBlank c && c != '\n' && c != '\r' then .blank
    else .plain

/-- The state at the end of a line, or else what precedes its comment. A comment follows a
blank. -/
def scan (state : LineState) (seen : List Char) : List Char → Except (List Char) LineState
  | [] => .ok state
  | c :: rest =>
    if state == .blank && c == '#' then .error seen.reverse
    else scan (state.next c) (c :: seen) rest

def splitLines : List Char → List (List Char)
  | [] => []
  | '\n' :: rest => ['\n'] :: splitLines rest
  | c :: rest =>
    match splitLines rest with
    | [] => [[c]]
    | line :: lines =>
      (c :: line) :: lines

def withoutLineEnd (line : List Char) : List Char :=
  match line.reverse with
  | '\n' :: '\r' :: rest => rest.reverse
  | '\n' :: rest => rest.reverse
  | _ => line

/-- Entries, each on one line or more; `before` holds the lines of an entry that goes on. An entry
that never ends is none. -/
def entries (before : List Char) (state : LineState) : List (List Char) → List (Option (List Char))
  | [] => if state == .plain then [] else [none]
  | line :: rest =>
    let text := before ++ line
    if (Text.trimLeft text).head? == some '#' then some [] :: entries [] .plain rest
    else match scan state [] line with
      | .error start => some (before ++ start) :: entries [] .plain rest
      | .ok .plain => some (withoutLineEnd text) :: entries [] .plain rest
      | .ok state => entries text state rest

inductive Mode where
  | bare
  | double
  | single
  | escape (quoted : Bool)
  | name (braced quoted : Bool) (read : List Char)
  | ended
deriving Repr, Inhabited, DecidableEq

def Mode.within (quoted : Bool) : Mode := if quoted then .double else .bare

def unescape? (c : Char) : Option Char :=
  if c == 'n' then some '\n'
  else if c == '\\' || c == '\x27' || c == '"' || c == '$' || c == ' ' then some c
  else none

section

variable (valueOf : List Char → List Char)

/-- What a value stands for; `valueOf` gives the values of the variables in it. -/
def expand : Mode → List Char → Option (List Char)
  | .bare, [] => some []
  | .ended, [] => some []
  | .escape false, [] => some []
  | .name false false read, [] => some (valueOf read.reverse)
  | _, [] => none
  | .ended, c :: rest =>
    if c == ' ' || c == '\t' then expand .ended rest else if c == '#' then some [] else none
  | .escape quoted, c :: rest => do
    let plain ← unescape? c
    return plain :: (← expand (.within quoted) rest)
  | .single, c :: rest =>
    if c == '\x27' then expand .bare rest else (expand .single rest).map (c :: ·)
  | .name braced quoted read, c :: rest =>
    if Text.isAlphanumeric c then expand (.name braced quoted (c :: read)) rest
    else if braced then
      if c == '\x7d' then (expand (.within quoted) rest).map (valueOf read.reverse ++ ·)
      else expand (.name true quoted (c :: read)) rest
    else if c == '\x7b' && read.isEmpty then expand (.name true quoted []) rest
    else if c == '$' then
      (expand (.name false quoted []) rest).map (valueOf read.reverse ++ ·)
    else (expand (.within quoted) rest).map (valueOf read.reverse ++ c :: ·)
  | .double, c :: rest =>
    if c == '$' then expand (.name false true []) rest
    else if c == '"' then expand .bare rest
    else if c == '\\' then expand (.escape true) rest
    else (expand .double rest).map (c :: ·)
  | .bare, c :: rest =>
    if c == '$' then expand (.name false false []) rest
    else if c == '"' then expand .double rest
    else if c == '\x27' then expand .single rest
    else if c == '\\' then expand (.escape false) rest
    else if c == ' ' || c == '\t' then expand .ended rest
    else (expand .bare rest).map (c :: ·)

end

def isNameStart (c : Char) : Bool := c.isAlpha || c == '_'

def isNameChar (c : Char) : Bool := c.isAlphanum || c == '_' || c == '.'

def name? (s : List Char) : Option (List Char × List Char) :=
  if s.head?.any isNameStart then
    some (s.takeWhile isNameChar, Text.trimLeft (s.dropWhile isNameChar))
  else none

def afterEquals? : List Char → Option (List Char)
  | '=' :: rest => some (Text.trimLeft rest)
  | _ => none

def assignment? (s : List Char) : Option (List Char × List Char) := do
  let (name, rest) ← name? s
  match afterEquals? rest with
  | some value => return (name, value)
  | none =>
    if name == "export".toList then
      let (name, rest) ← name? rest
      return (name, ← afterEquals? rest)
    else none

/-- Sets the variables of the entries up to the first that cannot be read. `earlier` holds what
the entries so far have said, whether it was set or not. -/
def setAll (environment earlier : Table String) : List (Option (List Char)) → Table String
  | [] => environment
  | none :: _ => environment
  | some line :: rest =>
    let s := Text.trim line
    if s.isEmpty || s.head? == some '#' then setAll environment earlier rest
    else
      let valueOf (name : List Char) : List Char :=
        let name := String.ofList name
        (((environment.get? name).or (earlier.get? name)).getD "").toList
      let set? : Option (String × String) := do
        let (name, value) ← assignment? s
        let text ←
          if value.isEmpty || value.head? == some '#' then some [] else expand valueOf .bare value
        return (String.ofList name, String.ofList text)
      match set? with
      | none => environment
      | some (name, text) =>
        let next := if environment.contains name then environment else environment.insert name text
        setAll next (earlier.insert name text) rest

def apply (environment : Table String) (text : String) : Table String :=
  let s := match text.toList with
    | '\ufeff' :: rest => rest
    | s => s
  setAll environment [] (entries [] .plain (splitLines s))

end GoalScript.VariableFile
