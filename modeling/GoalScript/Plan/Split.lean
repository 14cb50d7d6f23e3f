import GoalScript.Text.Blank
import GoalScript.Text.Search

namespace GoalScript.Plan

def translateEscapes (s : List Char) : List Char :=
  Text.replace "&rb;".toList [']']
    (Text.replace "&lb;".toList ['['] (Text.replace "&dot;".toList ['.'] s))

/-- An operator at the end has no operand; the stars of `.*` and `[*` belong to a query. The text
is given back to front. -/
def isDangling : List Char → Bool
  | '+' :: _ => true
  | '-' :: _ => true
  | '/' :: _ => true
  | '*' :: '.' :: _ => false
  | '*' :: '[' :: _ => false
  | '*' :: _ => true
  | _ => false

def dropDangling (reversed : List Char) : List Char :=
  match reversed with
  | [] => []
  | c :: rest =>
    if isDangling (c :: rest) then dropDangling (rest.dropWhile Text.isBlank) else c :: rest
termination_by reversed.length
decreasing_by
  have := (List.dropWhile_suffix Text.isBlank (l := rest)).length_le
  simp only [List.length_cons]; omega

def dropLeading (c : Char) : List Char → List Char
  | d :: rest => if d == c then rest else d :: rest
  | [] => []

def dropTrailing (c : Char) (s : List Char) : List Char :=
  if s.getLast? == some c then s.dropLast else s

/-- The expression without blanks around it, its percent signs and dangling operators. -/
def strip (raw : List Char) : List Char :=
  let inner := dropTrailing '%' (dropLeading '%' (Text.trim raw))
  (dropDangling (Text.trim inner).reverse).reverse

/-- Where a scan stands: how many brackets are open, and in which quotes. -/
structure Nesting where
  depth : Int := 0
  quote : Option Char := none

def Nesting.next (n : Nesting) (c : Char) : Nesting :=
  match n.quote with
  | some q => if c == q then { n with quote := none } else n
  | none =>
    if c == '"' || c == '\'' then { n with quote := some c }
    else if c == '[' || c == '(' then { n with depth := n.depth + 1 }
    else if c == ']' || c == ')' then { n with depth := n.depth - 1 }
    else n

def Nesting.isOutside (n : Nesting) : Bool := n.quote.isNone && n.depth == 0

def splitFrom (separator : Char) (n : Nesting) : List Char → List (List Char)
  | [] => [[]]
  | c :: rest =>
    if n.isOutside && c == separator then [] :: splitFrom separator n rest
    else match splitFrom separator (n.next c) rest with
      | piece :: pieces => (c :: piece) :: pieces
      | [] => [[c]]

def splitTop (separator : Char) (s : List Char) : List (List Char) := splitFrom separator {} s

def joinTop (separator : Char) (pieces : List (List Char)) : List Char :=
  [separator].intercalate pieces

def unquote? (s : List Char) : Option (List Char) :=
  match Text.trim s with
  | q :: rest =>
    if (q == '"' || q == '\'') && rest.getLast? == some q then some rest.dropLast else none
  | [] => none

def splitName (token : List Char) : List Char × List Char :=
  (token.takeWhile (· != '['), token.dropWhile (· != '['))

def closeFrom (depth : Nat) (quote : Option Char) : List Char → Option (List Char × List Char)
  | [] => none
  | c :: rest =>
    let continueWith (depth : Nat) (quote : Option Char) :=
      (closeFrom depth quote rest).map fun (inner, after) => (c :: inner, after)
    match quote with
    | some q => continueWith depth (if c == q then none else quote)
    | none =>
      if c == '"' || c == '\'' then continueWith depth (some c)
      else if c == '(' then continueWith (depth + 1) none
      else if c == ')' then
        match depth with
        | 0 => some ([], rest)
        | depth + 1 => continueWith depth none
      else continueWith depth none

end GoalScript.Plan
