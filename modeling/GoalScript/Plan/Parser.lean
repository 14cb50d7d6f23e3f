import GoalScript.Memory.Error
import GoalScript.Plan.Basic
import GoalScript.Plan.Duration
import GoalScript.Plan.Split
import GoalScript.Text.Alphabet

namespace GoalScript.Plan

abbrev Parsed := Except MemoryError

def invalid {α : Type} (raw : List Char) (reason : String) : Parsed α :=
  .error (.invalidExpression (String.ofList raw) reason)

/-- The places after the first character where an operator stands outside brackets and quotes,
back to front. The star of `.*` is no operator. -/
def operatorsFrom (place : Nat) (n : Nesting) (previous : Option Char) (found : List Nat) :
    List Char → List Nat
  | [] => found
  | c :: rest =>
    let isOperator := n.isOutside && (Operator.ofChar? c).isSome && place > 0 &&
      !(c == '*' && previous == some '.')
    let found := if isOperator then place :: found else found
    operatorsFrom (place + 1) (n.next c) (some c) found rest

def isReferenceChar (c : Char) : Bool :=
  Text.isAlphanumeric c || c == '_' || c == '.' || c == '[' || c == ']' || c == '!'

/-- A name after a minus sign without blanks continues the name before it, unless it is marked as
a reference. -/
def operand? (right : List Char) (op : Operator) (spaced : Bool) : Option Operand :=
  match Number.read right with
  | some x => some (.number x)
  | none =>
    match duration? right with
    | some ms => some (.duration ms)
    | none =>
      let name := Text.trimWhile (· == '%') right
      if !name.isEmpty && name.all isReferenceChar &&
          (op != .sub || spaced || right.head? == some '%') then
        some (.reference (String.ofList name))
      else none

def splitArithmetic (expr : List Char) : Option (List Char × Arithmetic) := do
  let place ← (operatorsFrom 0 {} none [] expr).head?
  let left := expr.take place
  let after := expr.drop (place + 1)
  let op ← (expr.drop place).head?.bind Operator.ofChar?
  let right := Text.trim after
  if (Text.trim left).isEmpty || right.isEmpty then none
  else
    let spaced := left.getLast? == some ' ' && after.head? == some ' '
    let operand ← operand? right op spaced
    return (Text.trim left, ⟨op, operand⟩)

/-- A filter or a star in brackets makes the rest of a path a query. -/
def isQueryToken (token : List Char) : Bool :=
  Text.contains token "[*]".toList || Text.contains token "[?".toList

def position (raw digits : List Char) : Parsed Nat :=
  let n := Number.natOf digits
  if n == 0 then invalid raw "indexes start at 1"
  else if n < Number.word64 then .ok n
  else invalid raw ("invalid index '" ++ String.ofList digits ++ "'")

def index (raw inner : List Char) : Parsed Index :=
  if inner.isEmpty then invalid raw "empty index"
  else if inner.all Char.isDigit then (position raw inner).map .position
  else match unquote? inner with
    | some key => .ok (.key (String.ofList (translateEscapes key)))
    | none =>
      .ok (.lookup (String.ofList (translateEscapes (Text.trimWhile (· == '%') inner))))

def brackets (raw : List Char) (rest : List Char) : Parsed (List Segment) :=
  match _ : Text.trimLeft rest with
  | [] => .ok []
  | '[' :: inside =>
    match _ : inside.dropWhile (· != ']') with
    | [] => invalid raw "missing closing bracket"
    | _ :: after => do
      let i ← index raw (Text.trim (inside.takeWhile (· != ']')))
      let more ← brackets raw after
      return .index i :: more
  | other => invalid raw ("unexpected '" ++ String.ofList (Text.trimRight other) ++ "'")
termination_by rest.length
decreasing_by
  have h1 := (List.dropWhile_suffix Text.isBlank (l := rest)).length_le
  have h2 := (List.dropWhile_suffix (· != ']') (l := inside)).length_le
  have h3 : rest.dropWhile Text.isBlank = _ := ‹Text.trimLeft rest = _›
  rw [h3] at h1
  rw [‹inside.dropWhile (· != ']') = _›] at h2
  simp only [List.length_cons] at h1 h2; omega

def argument (s : List Char) : Argument :=
  match unquote? s with
  | some text => .literal (.text (String.ofList text))
  | none =>
    let trimmed := Text.trim s
    if trimmed.length > 2 && trimmed.head? == some '%' && trimmed.getLast? == some '%' then
      .reference (String.ofList (trimmed.drop 1).dropLast)
    else match Number.read trimmed with
      | some x => .literal (.number x)
      | none =>
        match String.ofList (Text.lower trimmed) with
        | "true" => .literal (.bool true)
        | "false" => .literal (.bool false)
        | "null" => .literal .null
        | _ => .literal (.text (String.ofList trimmed))

def arguments (inner : List Char) : List Argument :=
  if (Text.trim inner).isEmpty then [] else (splitTop ',' inner).map argument

def token (raw token : List Char) : Parsed (List Segment) :=
  match token.dropWhile (· != '(') with
  | _ :: inside =>
    match closeFrom 0 none inside with
    | none => invalid raw ("unbalanced parentheses in '" ++ String.ofList token ++ "'")
    | some (inner, after) => do
      let name := String.ofList (Text.trim (token.takeWhile (· != '(')))
      return .method name (arguments inner) :: (← brackets raw after)
  | [] =>
    if token.all Char.isDigit then (position raw token).map fun n => [.index (.position n)]
    else
      let (name, rest) := splitName token
      let named := if name.isEmpty then []
        else [.property (String.ofList (translateEscapes (Text.trim name)))]
      (brackets raw rest).map (named ++ ·)

def query (path : List Char) : Segment := .query (String.ofList path)

/-- The tokens after the first; from an empty one, one that starts with a dollar sign or one that
holds a query, the rest of the path is a query. -/
def tokens (raw : List Char) : List (List Char) → Parsed (List Segment)
  | [] => .ok []
  | first :: rest =>
    let path := joinTop '.' (first :: rest)
    if first.isEmpty then .ok [query ('$' :: '.' :: path)]
    else if first.head? == some '$' then .ok [query path]
    else if isQueryToken first then .ok [query ('$' :: '.' :: path)]
    else do return (← token raw first) ++ (← tokens raw rest)

def path (raw path : List Char) : Parsed (String × List Segment) :=
  match splitTop '.' path with
  | [] => invalid raw "missing variable name"
  | first :: rest => do
    let (name, indexes) := splitName first
    if name.isEmpty then invalid raw "missing variable name"
    else
      let root := String.ofList (translateEscapes name)
      if isQueryToken indexes then return (root, [query ('$' :: path.drop name.length)])
      else return (root, (← brackets raw indexes) ++ (← tokens raw rest))

def parseChars (raw : List Char) : Parsed Plan :=
  let expr := strip raw
  if expr.isEmpty then invalid raw "empty expression"
  else
    let (left, arithmetic) := match splitArithmetic expr with
      | some (left, arithmetic) => (left, some arithmetic)
      | none => (expr, none)
    (path raw left).map fun (root, segments) =>
      { expr := String.ofList expr, root, segments, arithmetic }

def parse (raw : String) : Parsed Plan := parseChars raw.toList

/-- The expression of the value that the last step starts from. -/
def parent? (plan : Plan) : Option String :=
  if plan.segments.isEmpty then none
  else
    let tokens := splitTop '.' plan.expr.toList
    if tokens.length > 1 then some (String.ofList (joinTop '.' tokens.dropLast))
    else some plan.root

end GoalScript.Plan
