import GoalScript.Json.Shape
import GoalScript.Json.Token

namespace GoalScript.Json

/-- The characters up to the closing quote, and what follows it. Surrogates have to come in
pairs. -/
def readText : List Char → Option (List Char × List Char)
  | [] => none
  | '"' :: rest => some ([], rest)
  | '\\' :: 'u' :: a :: b :: c :: d :: '\\' :: 'u' :: e :: f :: g :: h :: rest => do
    let unit ← hex4? a b c d
    if isLeading unit then
      let second ← hex4? e f g h
      if isTrailing second then
        let (chars, rest) ← readText rest
        return (Char.ofNat (0x10000 + (unit - 0xD800) * 1024 + (second - 0xDC00)) :: chars, rest)
      else none
    else if isTrailing unit then none
    else
      let (chars, rest) ← readText ('\\' :: 'u' :: e :: f :: g :: h :: rest)
      return (Char.ofNat unit :: chars, rest)
  | '\\' :: 'u' :: a :: b :: c :: d :: rest => do
    let unit ← hex4? a b c d
    if isLeading unit || isTrailing unit then none
    else
      let (chars, rest) ← readText rest
      return (Char.ofNat unit :: chars, rest)
  | '\\' :: c :: rest => do
    let plain ← shortEscape? c
    let (chars, rest) ← readText rest
    return (plain :: chars, rest)
  | c :: rest =>
    if c == '\\' || c.toNat < 32 then none
    else do
      let (chars, rest) ← readText rest
      return (c :: chars, rest)
termination_by s => s.length

def absorb (sig : Nat) : List Char → Nat × Nat
  | [] => (sig, 0)
  | c :: rest =>
    let next := sig * 10 + Number.digitValue c
    if next < Number.word64 then absorb next rest else (sig, rest.length + 1)

/-- Digits join the significand while it fits 64 bits; from the first that does not, digits before
the point only scale and digits after it are dropped. -/
def significand (whole fraction : List Char) : Nat × Int :=
  let (sig, left) := absorb 0 whole
  let (sig, dropped) := absorb sig fraction
  (sig, left - (fraction.length - dropped : Nat))

def powerOfTen (n : Nat) : Float := Float.ofScientific 1 false n

def scaleFloat : Nat → Float → Int → Option Float
  | 0, _, _ => some 0.0
  | fuel + 1, x, exp =>
    if exp.natAbs ≤ 308 then
      if 0 ≤ exp then
        let y := x * powerOfTen exp.natAbs
        if Number.isFinite y then some y else none
      else some (x / powerOfTen exp.natAbs)
    else if x == 0.0 then some x
    else if 0 ≤ exp then none
    else scaleFloat fuel (x / powerOfTen 308) (exp + 308)

/-- A number without point and exponent that fits stays an integer; negative zero does not. -/
def numberOf (neg : Bool) (n : Numeral) : Option Json :=
  let (sig, scale) := significand n.whole (n.fraction.getD [])
  if n.fraction.isNone && n.exp.isNone && scale == 0 then
    if !neg then some (.int sig)
    else if sig == 0 || Number.half64 < sig then some (.float (-(Float.ofNat sig)))
    else some (.int (-sig))
  else (scaleFloat 4 (Float.ofNat sig) (scale + n.exp.getD 0)).map fun x =>
    .float (Number.signed neg x)

def readNumber (s : List Char) : Option (Json × List Char) := do
  let (neg, rest) := match s with
    | '-' :: rest => (true, rest)
    | _ => (false, s)
  let (numeral, rest) ← readNumeral rest
  return (← numberOf neg numeral, rest)

mutual

/-- `depth` counts the containers that may still be opened. -/
def readValue (shape : Shape) (depth : Nat) : Nat → List Char → Option (Json × List Char)
  | 0, _ => none
  | fuel + 1, s =>
    match skipSpace s with
    | 'n' :: 'u' :: 'l' :: 'l' :: rest => some (.null, rest)
    | 't' :: 'r' :: 'u' :: 'e' :: rest => some (.bool true, rest)
    | 'f' :: 'a' :: 'l' :: 's' :: 'e' :: rest => some (.bool false, rest)
    | '"' :: rest => (readText rest).map fun (chars, rest) => (.text (String.ofList chars), rest)
    | '[' :: rest =>
      if depth == 0 then none
      else match skipSpace rest with
        | ']' :: rest => some (.array [], rest)
        | rest =>
          (readItems shape 0 (depth - 1) fuel rest).map fun (items, rest) => (.array items, rest)
    | '\x7b' :: rest =>
      if depth == 0 then none
      else match skipSpace rest with
        | '\x7d' :: rest => some (.object [], rest)
        | rest =>
          (readMembers shape (depth - 1) fuel rest).map fun (members, rest) =>
            (.object members, rest)
    | rest => readNumber rest
termination_by structural fuel => fuel

def readItems (shape : Shape) (index depth : Nat) : Nat → List Char →
    Option (List Json × List Char)
  | 0, _ => none
  | fuel + 1, s => do
    let (item, rest) ← readValue (← shape.element? index) depth fuel s
    match skipSpace rest with
    | ',' :: rest =>
      let (items, rest) ← readItems shape (index + 1) depth fuel rest
      return (item :: items, rest)
    | ']' :: rest => return ([item], rest)
    | _ => none
termination_by structural fuel => fuel

def readMembers (shape : Shape) (depth : Nat) : Nat → List Char →
    Option (List (String × Json) × List Char)
  | 0, _ => none
  | fuel + 1, s =>
    match skipSpace s with
    | '"' :: rest => do
      let (chars, rest) ← readText rest
      let name := String.ofList chars
      match skipSpace rest with
      | ':' :: rest =>
        let (wanted, rest) ← match shape.member? name with
          | some inner => (readValue inner depth fuel rest).map fun (value, rest) =>
            ([(name, value)], rest)
          | none => (skim rest).map ([], ·)
        match skipSpace rest with
        | ',' :: rest =>
          let (members, rest) ← readMembers shape depth fuel rest
          return (wanted ++ members, rest)
        | '\x7d' :: rest => return (wanted, rest)
        | _ => none
      | _ => none
    | _ => none
termination_by structural fuel => fuel

end

/-- What is wanted of a text, with containers nested `depth` deep. Each step of the reader but the
last passes a character, so the length bounds the steps. -/
def readWithin (depth : Nat) (shape : Shape) (s : List Char) : Option Json :=
  match readValue shape depth (2 * s.length + 2) s with
  | some (json, rest) => if (skipSpace rest).isEmpty then some json else none
  | none => none

/-- Containers may be nested 127 deep. -/
def maxDepth : Nat := 127

def readShape (shape : Shape) (s : List Char) : Option Json := readWithin maxDepth shape s

def read (s : List Char) : Option Json := readShape .whole s

end GoalScript.Json
