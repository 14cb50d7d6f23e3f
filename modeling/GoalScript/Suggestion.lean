import GoalScript.Text.Case

namespace GoalScript.Suggestion

/-- One row of the distance table from the row above: `diagonal` stands above to the left, `above`
holds what follows it, and `left` is the cell just computed. -/
def fillRow (a : Char) : List Char → Nat → List Nat → Nat → List Nat
  | b :: bs, diagonal, up :: above, left =>
    let cell := min (min (diagonal + if a == b then 0 else 1) (up + 1)) (left + 1)
    cell :: fillRow a bs up above cell
  | _, _, _, _ => []

def nextRow (bs : List Char) (row : List Nat) (a : Char) : List Nat :=
  match row with
  | corner :: above => (corner + 1) :: fillRow a bs corner above (corner + 1)
  | [] => []

def distance (s t : List Char) : Nat :=
  (s.foldl (nextRow t) (List.range (t.length + 1))).getLast?.getD 0

/-- A third of the name's length, but never below two. -/
def reach (name : List Char) : Nat := max (name.length / 3) 2

/-- The distance within reach; a text that starts with the other counts as just within reach. -/
def effective? (name candidate : List Char) : Option Nat :=
  let d := distance name candidate
  if d ≤ reach name then some d
  else if name.isPrefixOf candidate || candidate.isPrefixOf name then some (reach name)
  else none

/-- The nearer of the best so far and a candidate; the earlier one wins a tie. -/
def better (name : List Char) (best : Option (Nat × String)) (candidate : String) :
    Option (Nat × String) :=
  match effective? name (Text.lower candidate.toList), best with
  | none, _ => best
  | some d, some (least, known) => if least ≤ d then some (least, known) else some (d, candidate)
  | some d, none => some (d, candidate)

/-- The first nearest candidate, letter case aside. An empty name is near to nothing. -/
def nearest? (name : String) (candidates : List String) : Option String :=
  let needle := Text.lower name.toList
  if needle.isEmpty then none
  else (candidates.foldl (better needle) none).map Prod.snd

def text : Option String → String
  | some name => ". Did you mean '" ++ name ++ "'?"
  | none => ""

end GoalScript.Suggestion
