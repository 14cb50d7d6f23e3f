import GoalScript.Memory.Resolve

namespace GoalScript

structure Span where
  start : Nat
  stop : Nat
deriving Repr, DecidableEq

namespace Span

def slice (s : Span) (text : List Char) : List Char := (text.drop s.start).take (s.stop - s.start)

def startsName : List Char → Bool
  | c :: _ => Text.isAlphabetic c || c == '_' || c == '!'
  | [] => false

def closing? (s : List Char) : Option Nat :=
  match s.dropWhile fun c => c != '%' && c != '\n' with
  | '%' :: _ => some (s.takeWhile fun c => c != '%' && c != '\n').length
  | _ => none

/-- A reference is a percent sign before a letter, `_` or `!`, up to the next percent sign on the
line. -/
def referencesFrom (place : Nat) (text : List Char) : List Span :=
  match text with
  | [] => []
  | c :: rest =>
    if c == '%' && startsName rest then
      match closing? rest with
      | some n => ⟨place, place + n + 2⟩ :: referencesFrom (place + n + 2) (rest.drop (n + 1))
      | none => referencesFrom (place + 1) rest
    else referencesFrom (place + 1) rest
termination_by text.length
decreasing_by
  all_goals simp only [List.length_cons, List.length_drop]; omega

def references (text : List Char) : List Span := referencesFrom 0 text

end Span

namespace Store

section

-- What references stand for.
variable (meaning : String → Resolved Value)

def interpolateBy (text : List Char) (place : Nat) : List Span → Resolved (List Char)
  | [] => .ok (text.drop place)
  | span :: rest => do
    let v ← meaning (String.ofList (span.slice text))
    let after ← interpolateBy text span.stop rest
    return (Span.slice ⟨place, span.start⟩ text) ++ v.display.toList ++ after

/-- A text that is one reference and nothing else keeps the type of its value. -/
def resolveTextBy (text : String) : Resolved Value :=
  let chars := text.toList
  let trimmed := Text.trim chars
  match Span.references chars with
  | [] => .ok (.text text)
  | [span] =>
    if span.slice chars == trimmed then meaning (String.ofList trimmed)
    else do return .text (String.ofList (← interpolateBy meaning chars 0 [span]))
  | spans => do return .text (String.ofList (← interpolateBy meaning chars 0 spans))

end

def interpolate (s : Store) : List Char → Nat → List Span → Resolved (List Char) :=
  interpolateBy s.getValue

def resolveText (s : Store) : String → Resolved Value := resolveTextBy s.getValue

mutual

def resolveJson (s : Store) : Json → Resolved Value
  | .text t => s.resolveText t
  | .array items => (s.resolveItems items).map .list
  | .object members => (s.resolveMembers members).map fun found => .object (Table.ofList found)
  | json => .ok (.ofJson json)

def resolveItems (s : Store) : List Json → Resolved (List Value)
  | [] => .ok []
  | json :: rest => do
    let v ← s.resolveJson json
    return v :: (← s.resolveItems rest)

def resolveMembers (s : Store) : List (String × Json) → Resolved (List (String × Value))
  | [] => .ok []
  | (name, json) :: rest => do
    let v ← s.resolveJson json
    return (name, v) :: (← s.resolveMembers rest)

end

end Store

end GoalScript
