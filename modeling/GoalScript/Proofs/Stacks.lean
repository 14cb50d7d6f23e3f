import GoalScript.Proofs.Notices
import Mathlib.Logic.Function.Basic

namespace GoalScript

/-- Stacks by number, with what they share. -/
structure Stacks where
  memories : Nat → Memory := fun _ => {}
  shared : Shared := {}

namespace Stacks

/-- Something that is done with one of the stacks, and when. -/
structure Use where
  stack : Nat
  now : Calendar.Instant
  operation : Operation

variable {w : Stacks} {i : Nat}

def store (w : Stacks) (i : Nat) (now : Calendar.Instant) : Store :=
  { memory := w.memories i, shared := w.shared, now }

def used (w : Stacks) (u : Use) : Store := w.store u.stack u.now

def use (w : Stacks) (u : Use) : Stacks :=
  let s := ((w.used u).operate u.operation).2
  { memories := Function.update w.memories u.stack s.memory, shared := s.shared }

def useAll (w : Stacks) (uses : List Use) : Stacks := uses.foldl use w

@[simp]
theorem useAll_concat (w : Stacks) (uses : List Use) (u : Use) :
    w.useAll (uses ++ [u]) = (w.useAll uses).use u := by
  simp [useAll]

@[simp]
theorem memories_use_self (w : Stacks) (u : Use) :
    (w.use u).memories u.stack = ((w.used u).operate u.operation).2.memory := by
  simp [use]

/-- The use of one stack leaves what the others have of their own as it is. -/
theorem memories_use_of_ne {u : Use} (other : u.stack ≠ i) :
    (w.use u).memories i = w.memories i := by
  simp [use, Function.update_of_ne (Ne.symm other)]

end Stacks

end GoalScript
