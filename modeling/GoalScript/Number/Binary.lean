import GoalScript.Number.Word

namespace GoalScript.Number

/-- A finite number is `mant * 2 ^ exp`, negated when `neg`. -/
inductive Binary where
  | nan
  | infinite (neg : Bool)
  | finite (neg : Bool) (mant : Nat) (exp : Int)
deriving Repr, DecidableEq

def Binary.ofFloat (x : Float) : Binary :=
  let bits := x.toBits.toNat
  let neg := bits / pow2 63 == 1
  let biased : Nat := bits / pow2 52 % pow2 11
  let fraction : Nat := bits % pow2 52
  if biased == 2047 then if fraction == 0 then .infinite neg else .nan
  else if biased == 0 then .finite neg fraction (-1074)
  else .finite neg (pow2 52 + fraction) ((biased : Int) - 1075)

def signed (neg : Bool) (x : Float) : Float := if neg then -x else x

def floorOf (mant : Nat) (exp : Int) : Nat :=
  if 0 ≤ exp then mant * pow2 exp.toNat else mant / pow2 (-exp).toNat

def isWholeOf (mant : Nat) (exp : Int) : Bool :=
  decide (0 ≤ exp) || mant % pow2 (-exp).toNat == 0

/-- The natural nearest to `mant * 2 ^ exp`, a half going up. -/
def nearestOf (mant : Nat) (exp : Int) : Nat :=
  if 0 ≤ exp then mant * pow2 exp.toNat
  else (2 * mant + pow2 (-exp).toNat) / pow2 ((-exp).toNat + 1)

def isFinite (x : Float) : Bool :=
  match Binary.ofFloat x with
  | .finite .. => true
  | _ => false

def isWhole (x : Float) : Bool :=
  match Binary.ofFloat x with
  | .finite _ mant exp => isWholeOf mant exp
  | _ => false

def truncated? (x : Float) : Option Int :=
  match Binary.ofFloat x with
  | .finite neg mant exp => some (if neg then -(floorOf mant exp : Int) else floorOf mant exp)
  | _ => none

/-- The integer nearest to a finite number, a half going away from zero. -/
def nearest? (x : Float) : Option Int :=
  match Binary.ofFloat x with
  | .finite neg mant exp => some (if neg then -(nearestOf mant exp : Int) else nearestOf mant exp)
  | _ => none

/-- Not-a-number counts as zero, and what lies outside the bounds as the nearer bound. -/
def clamped (lo hi : Int) (x : Float) : Int :=
  match Binary.ofFloat x with
  | .nan => 0
  | .infinite neg => if neg then lo else hi
  | .finite neg mant exp =>
    let whole : Int := if neg then -(floorOf mant exp : Int) else floorOf mant exp
    max lo (min hi whole)

def clampedNat (hi : Nat) (x : Float) : Nat := (clamped 0 hi x).toNat

/-- Rounds the magnitude of a number with a fraction and keeps its sign, also that of zero. -/
def roundedBy (magnitude : Bool → Nat → Int → Nat) (x : Float) : Float :=
  match Binary.ofFloat x with
  | .finite neg mant exp =>
    if isWholeOf mant exp then x else signed neg (Float.ofNat (magnitude neg mant exp))
  | _ => x

def round (x : Float) : Float := roundedBy (fun _ => nearestOf) x

def floor (x : Float) : Float :=
  roundedBy (fun neg mant exp => if neg then floorOf mant exp + 1 else floorOf mant exp) x

def ceil (x : Float) : Float :=
  roundedBy (fun neg mant exp => if neg then floorOf mant exp else floorOf mant exp + 1) x

end GoalScript.Number
