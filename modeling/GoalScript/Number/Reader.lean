import GoalScript.Number.Binary

namespace GoalScript.Number

def digitValue (c : Char) : Nat := c.toNat - '0'.toNat

def natOf (digits : List Char) : Nat := digits.foldl (fun n c => 10 * n + digitValue c) 0

def readNat (s : List Char) : Option Nat :=
  if s.isEmpty || !s.all Char.isDigit then none else some (natOf s)

def readInt (s : List Char) : Option Int :=
  match s with
  | '-' :: rest => (readNat rest).map fun n => -(n : Int)
  | '+' :: rest => (readNat rest).map Int.ofNat
  | _ => (readNat s).map Int.ofNat

/-- The binary number nearest to `coeff * 10 ^ exp`; beyond the bounds no power of ten is built. -/
def ofDecimal (coeff : Nat) (exp : Int) : Float :=
  let size : Int := (Nat.toDigits 10 coeff).length + exp
  if coeff == 0 || size < -400 then 0.0
  else if size > 400 then 1.0 / 0.0
  else Float.ofScientific coeff (exp < 0) exp.natAbs

def readExponent : List Char → Option Int
  | [] => some 0
  | 'e' :: rest => readInt rest
  | 'E' :: rest => readInt rest
  | _ => none

/-- Digits with an optional point among them, at least one digit in all, and an exponent. -/
def readMagnitude (s : List Char) : Option Float :=
  let whole := s.takeWhile Char.isDigit
  let rest := s.dropWhile Char.isDigit
  let (fraction, tail) := match rest with
    | '.' :: r => (r.takeWhile Char.isDigit, r.dropWhile Char.isDigit)
    | _ => ([], rest)
  if whole.isEmpty && fraction.isEmpty then none
  else (readExponent tail).map fun e => ofDecimal (natOf (whole ++ fraction)) (e - fraction.length)

def readWord (s : List Char) : Option Float :=
  let word := s.map Char.toLower
  if word == "inf".toList || word == "infinity".toList then some (1.0 / 0.0)
  else if word == "nan".toList then some (0.0 / 0.0)
  else none

def readUnsigned (s : List Char) : Option Float := (readMagnitude s).or (readWord s)

def read (s : List Char) : Option Float :=
  match s with
  | '-' :: rest => (readUnsigned rest).map fun x => -x
  | '+' :: rest => readUnsigned rest
  | _ => readUnsigned s

end GoalScript.Number
