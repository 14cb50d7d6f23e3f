import GoalScript.Goal.Basic
import GoalScript.Value.Basic

namespace GoalScript

/-- An exit stops as many enclosing goals as it has levels. -/
inductive Control where
  | proceed
  | exit (levels : Nat)
  | returned (value : Option Value)
deriving Repr, Inhabited

namespace Control

/-- What a goal that stopped so hands to its caller. -/
def unwind : Control → Control
  | .exit levels => if 1 < levels then .exit (levels - 1) else .proceed
  | c => c

def isProceed : Control → Bool
  | .proceed => true
  | _ => false

end Control

inductive Output where
  | nothing
  | value (v : Value)
  | callGoal (call : GoalCall)
  | exit (levels : Nat)
  | returned (value : Option Value)
  | branch (taken : Bool)
deriving Repr, Inhabited

end GoalScript
