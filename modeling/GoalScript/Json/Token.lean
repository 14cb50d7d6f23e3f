import GoalScript.Json.Basic
import GoalScript.Number.Reader

namespace GoalScript.Json

def isSpace (c : Char) : Bool := c == ' ' || c == '\t' || c == '\n' || c == '\r'

def skipSpace (s : List Char) : List Char := s.dropWhile isSpace

def hexValue? (c : Char) : Option Nat :=
  if '0' ≤ c && c ≤ '9' then some (c.toNat - 48)
  else if 'a' ≤ c && c ≤ 'f' then some (c.toNat - 87)
  else if 'A' ≤ c && c ≤ 'F' then some (c.toNat - 55)
  else none

def hex4? (a b c d : Char) : Option Nat := do
  return ((← hexValue? a) * 16 + (← hexValue? b)) * 256 + (← hexValue? c) * 16 + (← hexValue? d)

def isLeading (unit : Nat) : Bool := 0xD800 ≤ unit && unit < 0xDC00

def isTrailing (unit : Nat) : Bool := 0xDC00 ≤ unit && unit < 0xE000

def shortEscape? : Char → Option Char
  | '"' => some '"'
  | '\\' => some '\\'
  | '/' => some '/'
  | 'b' => some '\x08'
  | 'f' => some '\x0c'
  | 'n' => some '\n'
  | 'r' => some '\r'
  | 't' => some '\t'
  | _ => none

/-- An exponent mark, an optional sign and digits; a mark without digits is refused. -/
def readExponent (s : List Char) : Option (Option Int × List Char) :=
  match s with
  | c :: rest =>
    if c == 'e' || c == 'E' then
      let (neg, rest) := match rest with
        | '-' :: r => (true, r)
        | '+' :: r => (false, r)
        | _ => (false, rest)
      let digits := rest.takeWhile Char.isDigit
      if digits.isEmpty then none
      else
        let value : Int := Number.natOf digits
        some (some (if neg then -value else value), rest.dropWhile Char.isDigit)
    else some (none, s)
  | [] => some (none, [])

structure Numeral where
  whole : List Char
  fraction : Option (List Char)
  exp : Option Int
deriving Repr, Inhabited, DecidableEq

def readNumeral (s : List Char) : Option (Numeral × List Char) :=
  let whole := s.takeWhile Char.isDigit
  let rest := s.dropWhile Char.isDigit
  if whole.isEmpty || (whole.head? == some '0' && whole.length > 1) then none
  else
    let (fraction, rest) := match rest with
      | '.' :: r => (some (r.takeWhile Char.isDigit), r.dropWhile Char.isDigit)
      | _ => (none, rest)
    if fraction == some [] then none
    else (readExponent rest).map fun (exp, rest) => ({ whole, fraction, exp }, rest)

def skimText : List Char → Option (List Char)
  | [] => none
  | '"' :: rest => some rest
  | '\\' :: 'u' :: a :: b :: c :: d :: rest =>
    if (hex4? a b c d).isSome then skimText rest else none
  | '\\' :: c :: rest => if (shortEscape? c).isSome then skimText rest else none
  | c :: rest => if c == '\\' || c.toNat < 32 then none else skimText rest

def skimName (s : List Char) : Option (List Char) :=
  match skipSpace s with
  | '"' :: rest => do
    match skipSpace (← skimText rest) with
    | ':' :: rest => some rest
    | _ => none
  | _ => none

inductive Container where
  | array
  | object
deriving Repr, Inhabited, DecidableEq

/-- After a value, the containers that stay open and the text of the next value in them. -/
def leave : List Container → List Char → Option (List Container × List Char)
  | [], s => some ([], s)
  | container :: around, s =>
    match container, skipSpace s with
    | .array, ',' :: rest => some (.array :: around, rest)
    | .object, ',' :: rest => (skimName rest).map (.object :: around, ·)
    | .array, ']' :: rest => leave around rest
    | .object, '\x7d' :: rest => leave around rest
    | _, _ => none

/-- From the start of a value to the start of the next one, or to the end of them all. -/
def skimStep (around : List Container) (s : List Char) :
    Option (List Container × List Char) :=
  match skipSpace s with
  | 'n' :: 'u' :: 'l' :: 'l' :: rest => leave around rest
  | 't' :: 'r' :: 'u' :: 'e' :: rest => leave around rest
  | 'f' :: 'a' :: 'l' :: 's' :: 'e' :: rest => leave around rest
  | '"' :: rest => (skimText rest).bind (leave around)
  | '[' :: rest =>
    match skipSpace rest with
    | ']' :: rest => leave around rest
    | rest => some (.array :: around, rest)
  | '\x7b' :: rest =>
    match skipSpace rest with
    | '\x7d' :: rest => leave around rest
    | rest => (skimName rest).map (.object :: around, ·)
  | '-' :: rest => (readNumeral rest).bind fun (_, rest) => leave around rest
  | rest => (readNumeral rest).bind fun (_, rest) => leave around rest

def skimFrom (around : List Container) : Nat → List Char → Option (List Char)
  | 0, _ => none
  | fuel + 1, s =>
    match skimStep around s with
    | none => none
    | some ([], rest) => some rest
    | some (around, rest) => skimFrom around fuel rest

/-- What follows a value, which has to be well formed; only its numbers may be beyond all bounds,
its surrogates may stand alone, and its containers may be nested to any depth. Each step passes a
character. -/
def skim (s : List Char) : Option (List Char) := skimFrom [] s.length s

end GoalScript.Json
