namespace GoalScript.Text

def findFrom (part : List Char) (start : Nat) : List Char → Option Nat
  | [] => if part.isEmpty then some start else none
  | c :: rest =>
    if part.isPrefixOf (c :: rest) then some start else findFrom part (start + 1) rest

def find? (part s : List Char) : Option Nat := findFrom part 0 s

def contains (s part : List Char) : Bool := (find? part s).isSome

/-- Splits at occurrences of a separator that is not empty; `skip` characters still belong to the
last one. -/
def splitFrom (separator : List Char) (skip : Nat) : List Char → List (List Char)
  | [] => [[]]
  | c :: rest =>
    if skip > 0 then splitFrom separator (skip - 1) rest
    else if separator.isPrefixOf (c :: rest) then
      [] :: splitFrom separator (separator.length - 1) rest
    else match splitFrom separator 0 rest with
      | piece :: pieces => (c :: piece) :: pieces
      | [] => [[c]]

/-- An empty separator stands before, between and after the characters. -/
def splitOn (separator s : List Char) : List (List Char) :=
  if separator.isEmpty then [] :: s.map (fun c => [c]) ++ [[]]
  else splitFrom separator 0 s

def replace (part replacement s : List Char) : List Char :=
  replacement.intercalate (splitOn part s)

end GoalScript.Text
