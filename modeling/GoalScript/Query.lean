import GoalScript.Memory.Error
import GoalScript.Number.Reader
import GoalScript.Value.Basic

namespace GoalScript.Query

/-- Indexes count from 0, negative ones from the end. A descent without a name takes everything
below. -/
inductive Step where
  | child (name : String)
  | index (i : Int)
  | all
  | descend (name : Option String)
deriving Repr, Inhabited, DecidableEq

def Step.isDefinite : Step → Bool
  | .child _ => true
  | .index _ => true
  | _ => false

def isNameChar (c : Char) : Bool := c != '.' && c != '['

def index? (s : List Char) : Option Int :=
  (Number.readInt s).bind fun i => if Number.isSigned64 i then some i else none

def bracketed? (inner : List Char) : Option Step :=
  if inner == ['*'] then some .all
  else match index? inner with
    | some i => some (.index i)
    | none =>
      match inner with
      | q :: rest =>
        if (q == '\'' || q == '"') && rest.getLast? == some q then
          some (.child (String.ofList rest.dropLast))
        else none
      | [] => none

def described (name : List Char) (descend : Bool) : Except String Step :=
  let text := String.ofList name
  if descend then .ok (.descend (if name.isEmpty || name == ['*'] then none else some text))
  else if name == ['*'] then .ok .all
  else if name.isEmpty then .error "empty member name"
  else .ok (.child text)

def steps (s : List Char) : Except String (List Step) :=
  match s with
  | [] => .ok []
  | '.' :: '.' :: rest => do
    let step ← described (rest.takeWhile isNameChar) true
    return step :: (← steps (rest.dropWhile isNameChar))
  | '.' :: rest => do
    let step ← described (rest.takeWhile isNameChar) false
    return step :: (← steps (rest.dropWhile isNameChar))
  | '[' :: rest =>
    match _ : rest.dropWhile (· != ']') with
    | [] => .error "missing closing bracket"
    | _ :: after =>
      match bracketed? (Text.trim (rest.takeWhile (· != ']'))) with
      | none => .error "unsupported bracket expression"
      | some step => do return step :: (← steps after)
  | c :: rest => do
    let name := c :: rest.takeWhile isNameChar
    return .child (String.ofList name) :: (← steps (rest.dropWhile isNameChar))
termination_by s.length
decreasing_by
  · have := (List.dropWhile_suffix isNameChar (l := rest)).length_le
    simp only [List.length_cons]; omega
  · have := (List.dropWhile_suffix isNameChar (l := rest)).length_le
    simp only [List.length_cons]; omega
  · have := (List.dropWhile_suffix (· != ']') (l := rest)).length_le
    rw [‹rest.dropWhile (· != ']') = _›] at this
    simp only [List.length_cons] at this ⊢; omega
  · have := (List.dropWhile_suffix isNameChar (l := rest)).length_le
    simp only [List.length_cons]; omega

def parse (path : String) : Except MemoryError (List Step) :=
  match steps (match Text.trim path.toList with
    | '$' :: rest => rest
    | s => s) with
  | .ok found => .ok found
  | .error reason => .error (.invalidQuery path reason)

mutual

/-- The value itself and everything below it, containers before their contents. -/
def descendants : Value → List Value
  | .list items => .list items :: descendantsOfItems items
  | .object members => .object members :: descendantsOfMembers members
  | v => [v]

def descendantsOfItems : List Value → List Value
  | [] => []
  | v :: rest => descendants v ++ descendantsOfItems rest

def descendantsOfMembers : List (String × Value) → List Value
  | [] => []
  | (_, v) :: rest => descendants v ++ descendantsOfMembers rest

end

def element? (v : Value) (i : Int) : Option Value :=
  match v with
  | .list items =>
    let place := if i < 0 then items.length + i else i
    if 0 ≤ place then items[place.toNat]? else none
  | _ => none

def Step.apply (step : Step) (v : Value) : List Value :=
  match step with
  | .child name => (v.member? name).toList
  | .index i => (element? v i).toList
  | .all => v.children
  | .descend (some name) => (descendants v).filterMap fun w => w.member? name
  | .descend none => (descendants v).drop 1

/-- Each step is applied to all matches of the steps before it. -/
def run (steps : List Step) (v : Value) : List Value :=
  steps.foldl (fun found step => found.flatMap step.apply) [v]

def query (v : Value) (path : String) : Except MemoryError (List Value) :=
  (parse path).map fun steps => run steps v

/-- A definite path gives its match or null, any other path the list of its matches. -/
def select (v : Value) (path : String) : Except MemoryError Value :=
  (parse path).map fun steps =>
    let found := run steps v
    if steps.all Step.isDefinite then found.head?.getD .null else .list found

end GoalScript.Query
