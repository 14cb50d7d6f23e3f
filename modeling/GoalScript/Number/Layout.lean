import GoalScript.Number.Shortest

namespace GoalScript.Number

def zeros (n : Nat) : List Char := List.replicate n '0'

def digitsOf (n : Nat) : List Char := Nat.toDigits 10 n

def Decimal.positional (d : Decimal) : List Char :=
  let ds := digitsOf d.coeff
  let point : Int := ds.length + d.exp
  if 0 ≤ d.exp then ds ++ zeros d.exp.toNat
  else if 0 < point then ds.take point.toNat ++ '.' :: ds.drop point.toNat
  else '0' :: '.' :: zeros (-point).toNat ++ ds

def Decimal.lead (d : Decimal) : Int := (digitsOf d.coeff).length - 1 + d.exp

def Decimal.significand (d : Decimal) : List Char :=
  match digitsOf d.coeff with
  | [] => []
  | [c] => [c]
  | c :: rest => c :: '.' :: rest

def withSign (neg : Bool) (text : List Char) : String :=
  String.ofList (if neg then '-' :: text else text)

def decimalOf (tie : Tie) (mant : Nat) (exp : Int) : Decimal :=
  if mant == 0 then ⟨0, 0⟩ else shortest tie mant exp

def plainText (x : Float) : String :=
  match Binary.ofFloat x with
  | .nan => "NaN"
  | .infinite neg => if neg then "-inf" else "inf"
  | .finite neg mant exp => withSign neg (decimalOf .up mant exp).positional

/-- The tagged form: always an exponent, without plus sign or padding. -/
def scientificText (x : Float) : String :=
  match Binary.ofFloat x with
  | .nan => "NaN"
  | .infinite neg => if neg then "-inf" else "inf"
  | .finite neg mant exp =>
    let d := decimalOf .up mant exp
    withSign neg (d.significand ++ 'e' :: (toString d.lead).toList)

/-- Fractional JSON numbers: positional from 1e-5 up to 1e16, where a whole number shows `.0`, and
with a signed exponent outside. -/
def jsonText (x : Float) : String :=
  match Binary.ofFloat x with
  | .finite neg mant exp =>
    let d := decimalOf .toEven mant exp
    if -5 ≤ d.lead && d.lead < 16 then
      withSign neg (d.positional ++ if 0 ≤ d.exp then ['.', '0'] else [])
    else
      let mark := if d.lead < 0 then ['e'] else ['e', '+']
      withSign neg (d.significand ++ mark ++ (toString d.lead).toList)
  | _ => "null"

/-- Whole numbers below 1e15 are written as integers, so that negative zero is `0`. -/
def display (x : Float) : String :=
  if isWhole x && x.abs < 1e15 then toString ((truncated? x).getD 0) else plainText x

end GoalScript.Number
