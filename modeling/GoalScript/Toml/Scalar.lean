import GoalScript.Calendar.Date
import GoalScript.Json.Reader

namespace GoalScript.Toml

def ungroup? (isDigit : Char → Bool) : List Char → Option (List Char)
  | [] => none
  | [c] => if isDigit c then some [c] else none
  | c :: '_' :: rest => if isDigit c then (ungroup? isDigit rest).map (c :: ·) else none
  | c :: rest => if isDigit c then (ungroup? isDigit rest).map (c :: ·) else none

def whole? (s : List Char) : Option (List Char) := do
  let digits ← ungroup? Char.isDigit s
  if digits.head? == some '0' && digits.length > 1 then none else some digits

def natInBase? (base : Nat) (s : List Char) : Option Nat := do
  let digits ← ungroup? (fun c => (Json.hexValue? c).any (· < base)) s
  let values ← digits.mapM Json.hexValue?
  return values.foldl (fun n v => base * n + v) 0

def splitSign : List Char → Bool × List Char
  | '-' :: rest => (true, rest)
  | '+' :: rest => (false, rest)
  | s => (false, s)

def unboundedInteger? : List Char → Option Int
  | '0' :: 'x' :: digits => (natInBase? 16 digits).map Int.ofNat
  | '0' :: 'o' :: digits => (natInBase? 8 digits).map Int.ofNat
  | '0' :: 'b' :: digits => (natInBase? 2 digits).map Int.ofNat
  | s =>
    let (neg, digits) := splitSign s
    (whole? digits).map fun ds => if neg then -(Number.natOf ds : Int) else Number.natOf ds

/-- An integer of 64 bits; only decimal ones have a sign. -/
def integer? (s : List Char) : Option Int := do
  let i ← unboundedInteger? s
  if Number.isSigned64 i then some i else none

def isExponentMark (c : Char) : Bool := c == 'e' || c == 'E'

def magnitude? (s : List Char) : Option Float := do
  let mantissa := s.takeWhile (!isExponentMark ·)
  let whole ← whole? (mantissa.takeWhile (· != '.'))
  let fraction ← match mantissa.dropWhile (· != '.') with
    | [] => some []
    | _ :: rest => ungroup? Char.isDigit rest
  let exponent : Int ← match s.dropWhile (!isExponentMark ·) with
    | [] => if fraction.isEmpty then none else some 0
    | _ :: rest =>
      let (neg, digits) := splitSign rest
      (ungroup? Char.isDigit digits).map fun ds =>
        if neg then -(Number.natOf ds : Int) else Number.natOf ds
  return Number.ofDecimal (Number.natOf (whole ++ fraction)) (exponent - fraction.length)

/-- A binary fraction. What is too large for one is refused unless it is negative. -/
def float? (s : List Char) : Option Float :=
  let (neg, digits) := splitSign s
  if digits == "inf".toList then some (Number.signed neg (1.0 / 0.0))
  else if digits == "nan".toList then some (0.0 / 0.0)
  else do
    let x ← magnitude? digits
    if neg || Number.isFinite x then some (Number.signed neg x) else none

def twoDigits? (low high : Nat) : List Char → Option (List Char × List Char)
  | a :: b :: rest =>
    let n := Number.natOf [a, b]
    if a.isDigit && b.isDigit && low ≤ n && n ≤ high then some ([a, b], rest) else none
  | _ => none

def skip? (mark : Char) : List Char → Option (List Char)
  | c :: rest => if c == mark then some rest else none
  | [] => none

def day? (s : List Char) : Option (List Char × List Char) := do
  let year := s.take 4
  if year.length < 4 || !year.all Char.isDigit then none
  else
    let rest ← skip? '-' (s.drop 4)
    let (month, rest) ← twoDigits? 1 12 rest
    let rest ← skip? '-' rest
    let last := Calendar.daysInMonth (Number.natOf year) (Number.natOf month)
    let (day, rest) ← twoDigits? 1 last rest
    return (year ++ '-' :: month ++ '-' :: day, rest)

/-- A fraction of a second: nine digits at most count, and zeros at the end do not show. -/
def fractionText (digits : List Char) : List Char :=
  let shown := ((digits.take 9).reverse.dropWhile (· == '0')).reverse
  if shown.isEmpty then [] else '.' :: shown

/-- A time of day, and what follows it. A minute may have a leap second. -/
def clock? (s : List Char) : Option (List Char × List Char) := do
  let (hour, rest) ← twoDigits? 0 23 s
  let rest ← skip? ':' rest
  let (minute, rest) ← twoDigits? 0 59 rest
  let rest ← skip? ':' rest
  let (second, rest) ← twoDigits? 0 60 rest
  let shown := hour ++ ':' :: minute ++ ':' :: second
  match rest with
  | '.' :: tail =>
    let digits := tail.takeWhile Char.isDigit
    if digits.isEmpty then some (shown, rest)
    else some (shown ++ fractionText digits, tail.dropWhile Char.isDigit)
  | _ => some (shown, rest)

/-- The distance from universal time, and what follows it. No distance has a plus sign. -/
def offset? : List Char → Option (List Char × List Char)
  | 'Z' :: rest => some (['Z'], rest)
  | 'z' :: rest => some (['Z'], rest)
  | sign :: rest =>
    if sign == '+' || sign == '-' then do
      let (hours, rest) ← twoDigits? 0 23 rest
      let rest ← skip? ':' rest
      let (minutes, rest) ← twoDigits? 0 59 rest
      let sign := if Number.natOf (hours ++ minutes) == 0 then '+' else sign
      return (sign :: hours ++ ':' :: minutes, rest)
    else none
  | [] => none

/-- A time of day after a date, and its offset if there is one. -/
def clockAfterDay? : List Char → Option (List Char × List Char)
  | mark :: rest =>
    if mark == 'T' || mark == 't' || mark == ' ' then do
      let (clock, rest) ← clock? rest
      match offset? rest with
      | some (offset, rest) => return ('T' :: clock ++ offset, rest)
      | none => return ('T' :: clock, rest)
    else none
  | [] => none

/-- A date, a time of day, or both, and what follows. -/
def moment? (s : List Char) : Option (List Char × List Char) :=
  match day? s with
  | some (day, rest) =>
    match clockAfterDay? rest with
    | some (clock, rest) => some (day ++ clock, rest)
    | none => some (day, rest)
  | none => clock? s

def isTokenChar (c : Char) : Bool :=
  c.isAlphanum || c == '+' || c == '-' || c == '.' || c == '_'

def token? (token : List Char) : Option Json :=
  if token == "true".toList then some (.bool true)
  else if token == "false".toList then some (.bool false)
  else ((integer? token).map Json.int).or ((float? token).map Json.float)

/-- A value that is neither quoted nor made of others; `ofMoment` says what stands for a moment. -/
def readScalar (ofMoment : String → Json) (s : List Char) : Option (Json × List Char) :=
  match moment? s with
  | some (moment, rest) => some (ofMoment (String.ofList moment), rest)
  | none => (token? (s.takeWhile isTokenChar)).map (·, s.dropWhile isTokenChar)

end GoalScript.Toml
