namespace GoalScript.Text

/-- The search stops at the first span that starts after the code point. -/
def within : List (Nat × Nat) → Nat → Bool
  | [], _ => false
  | (lo, hi) :: rest, c => if c < lo then false else c ≤ hi || within rest c

end GoalScript.Text
