import GoalScript.Calendar.Instant
import GoalScript.Text.Blank
import GoalScript.Text.Case

namespace GoalScript.Plan

/-- Any number of trailing `s` makes a plural. -/
def secondsPerUnit? (unit : List Char) : Option Float :=
  match String.ofList (Text.trimRightWhile (· == 's') (Text.lower unit)) with
  | "second" => some 1.0
  | "sec" => some 1.0
  | "minute" => some 60.0
  | "min" => some 60.0
  | "hour" => some 3600.0
  | "day" => some 86400.0
  | "week" => some 604800.0
  | _ => none

/-- The nearest millisecond within 64 bits, unless that is the lowest such number. -/
def millisecondsOf? (x : Float) : Option Int :=
  match Number.nearest? x with
  | none => none
  | some ms =>
    let ms := max (-Number.half64 : Int) (min (Number.half64 - 1 : Int) ms)
    if Calendar.isDuration ms then some ms else none

def duration? (s : List Char) : Option Int :=
  match Text.words s with
  | [amount, unit] => do
    let amount ← Number.read amount
    let seconds ← secondsPerUnit? unit
    millisecondsOf? (amount * seconds * 1000.0)
  | _ => none

end GoalScript.Plan
