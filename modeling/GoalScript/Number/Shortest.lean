import GoalScript.Number.Binary

namespace GoalScript.Number

structure Decimal where
  coeff : Nat
  exp : Int
deriving Repr, DecidableEq

inductive Tie where
  | up
  | toEven
deriving Repr, DecidableEq

/-- Compares `a * 10 ^ i` with `b * 2 ^ j`. -/
def compareScaled (a : Nat) (i : Int) (b : Nat) (j : Int) : Ordering :=
  compare (a * pow10 i.toNat * pow2 (-j).toNat) (b * pow2 j.toNat * pow10 (-i).toNat)

/-- The decimal lies among the reals whose nearest binary number is `mant * 2 ^ exp`; both ends
belong to an even mantissa. Below a power of two the gap is half as wide. -/
def readsBack (mant : Nat) (exp : Int) (d : Decimal) : Bool :=
  let low := if mant == pow2 52 && exp > -1074 then 4 * mant - 1 else 4 * mant - 2
  let fromLow := compareScaled d.coeff d.exp low (exp - 2)
  let fromHigh := compareScaled d.coeff d.exp (4 * mant + 2) (exp - 2)
  let ends := mant % 2 == 0
  (fromLow == .gt || ends && fromLow == .eq) && (fromHigh == .lt || ends && fromHigh == .eq)

def digitCount (n : Nat) : Nat := (Nat.toDigits 10 n).length

def leadingExponent (mant : Nat) (exp : Int) : Int :=
  let num := mant * pow2 exp.toNat
  let den := pow2 (-exp).toNat
  if den ≤ num then digitCount (num / den) - 1
  else -(digitCount ((den - 1) / num) : Int)

/-- The two neighbours on the grid of step `10 ^ grid`, when one of them reads back. -/
def onGrid? (tie : Tie) (mant : Nat) (exp grid : Int) : Option Decimal :=
  let num := mant * pow2 exp.toNat * pow10 (-grid).toNat
  let den := pow2 (-exp).toNat * pow10 grid.toNat
  let below := num / den
  let twice := 2 * (num % den)
  let upper := twice > den || twice == den && (tie == .up || below % 2 == 1)
  match readsBack mant exp ⟨below, grid⟩, readsBack mant exp ⟨below + 1, grid⟩ with
  | true, true => some ⟨if upper then below + 1 else below, grid⟩
  | true, false => some ⟨below, grid⟩
  | false, true => some ⟨below + 1, grid⟩
  | false, false => none

def Decimal.strip (d : Decimal) : Decimal :=
  if h : d.coeff ≠ 0 ∧ d.coeff % 10 = 0 then strip ⟨d.coeff / 10, d.exp + 1⟩ else d
termination_by d.coeff
decreasing_by omega

/-- Seventeen digits always suffice; the exact value stands behind them. -/
def shortest (tie : Tie) (mant : Nat) (exp : Int) : Decimal :=
  let lead := leadingExponent mant exp
  let found := (List.range 17).findSome? fun (n : Nat) => onGrid? tie mant exp (lead - n)
  let exact : Decimal := ⟨mant * pow2 exp.toNat * Nat.pow 5 (-exp).toNat, min exp 0⟩
  (found.getD exact).strip

end GoalScript.Number
