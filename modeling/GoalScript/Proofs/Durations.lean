import GoalScript.Plan.Duration
import GoalScript.Proofs.Naming
import GoalScript.Proofs.Nearness

namespace GoalScript

namespace Text

variable {c : Char} {s t : List Char}

/-- White space has no letter case. -/
theorem lowerLetter_of_isBlank (h : isBlank c = true) : lowerLetter c = [c] := by
  have blanks : ∀ span ∈ blankSpans, ∀ k < span.2 + 1 - span.1,
      lowerLetter (Char.ofNat (span.1 + k)) = [Char.ofNat (span.1 + k)] := by decide +kernel
  obtain ⟨span, mem, lower, upper⟩ := span_of_within h
  have same := blanks span mem (c.toNat - span.1) (by omega)
  rwa [Nat.add_sub_cancel' lower, Char.ofNat_toNat] at same

theorem words_pair (some : s ≠ []) (some' : t ≠ []) (visible : ∀ c ∈ s, isBlank c = false)
    (visible' : ∀ c ∈ t, isBlank c = false) : words (s ++ ' ' :: t) = [s, t] := by
  rw [words, List.splitOnP_append_cons_of_forall_mem visible ' ' (by decide),
    List.splitOnP_eq_singleton visible']
  simp [some, some']

end Text

namespace Number

variable {s : List Char} {c : Char} {x : Float}

def opposite : List Char → List Char
  | '-' :: s => s
  | '+' :: s => '-' :: s
  | s => '-' :: s

theorem readUnsigned_of_sign (known : c ∈ ['+', '-']) (s : List Char) :
    readUnsigned (c :: s) = none := by
  have marks : ∀ c ∈ ['+', '-'], c.isDigit = false ∧ c ≠ '.' ∧ Text.isAlphanumeric c = false :=
    List.all_iff_forall_prop.mp (by decide)
  obtain ⟨figure, point, foreign⟩ := marks c known
  rw [readUnsigned, Option.or_eq_none_iff]
  constructor
  · simp [readMagnitude, figure, point]
  · rw [Option.eq_none_iff_forall_ne_some]
    intro v word
    rw [(letters_of_readWord word).2 c List.mem_cons_self] at foreign
    cases foreign

theorem read_of_readUnsigned (h : readUnsigned s = some x) : read s = some x := by
  unfold read
  split
  · rw [readUnsigned_of_sign (by simp)] at h
    cases h
  · exact absurd h (by rw [readUnsigned_of_sign (by simp)]; simp)
  · exact h

/-- The opposite text is read as the opposite number. -/
theorem read_opposite (h : read s = some x) :
    ∃ y, read (opposite s) = some y ∧ IsOpposite x y := by
  unfold opposite
  split
  · obtain ⟨u, unsigned, rfl⟩ := Option.map_eq_some_iff.mp h
    exact ⟨u, read_of_readUnsigned unsigned, (isOpposite_neg u).symm⟩
  · exact ⟨-x, congrArg (Option.map (-·)) h, isOpposite_neg x⟩
  · rename_i unnegated unmarked
    have unsigned : readUnsigned s = some x := by
      unfold read at h
      split at h
      · exact absurd rfl (unnegated _)
      · exact absurd rfl (unmarked _)
      · exact h
    exact ⟨-x, congrArg (Option.map (-·)) unsigned, isOpposite_neg x⟩

end Number

namespace Plan

open Number

variable {amount unit : List Char} {x y seconds : Float} {m : Int}

theorem visible_of_read (h : read amount = some x) : ∀ c ∈ amount, Text.isBlank c = false := by
  have others : ∀ c ∈ dividers, Text.isBlank c = false := List.all_iff_forall_prop.mp (by decide)
  exact fun c mem => (words_of_read h c mem).elim (·.not_blank) (others c)

theorem visible_of_secondsPerUnit (h : secondsPerUnit? unit = some seconds) :
    ∀ c ∈ unit, Text.isBlank c = false := by
  intro c mem
  by_contra blank
  rw [Bool.not_eq_false] at blank
  have foreign : Text.isAlphanumeric c = false := by
    by_contra letter
    rw [Bool.not_eq_false] at letter
    rw [Text.isBlank_of_isAlphanumeric letter] at blank
    cases blank
  rw [secondsPerUnit?_eq_none foreign (Text.lowerLetter_of_isBlank blank) mem] at h
  cases h

/-- A duration is its amount times the length of its unit. -/
theorem duration?_eq (h : read amount = some x) (known : secondsPerUnit? unit = some seconds) :
    duration? (amount ++ ' ' :: unit) = millisecondsOf? (x * seconds * 1000.0) := by
  have some : amount ≠ [] := by
    rintro rfl
    cases h
  have some' : unit ≠ [] := by
    rintro rfl
    cases known
  rw [duration?, Text.words_pair some some' (visible_of_read h) (visible_of_secondsPerUnit known)]
  simp [h, known]

/-- The nearest millisecond is taken, up to the bounds. -/
theorem millisecondsOf?_eq (nearest : nearest? x = some m) :
    millisecondsOf? x = if m ≤ -half64 then none else some (min m (half64 - 1)) := by
  have word : (0 : Int) < half64 := by decide
  unfold millisecondsOf? Calendar.isDuration
  rw [nearest]
  dsimp only
  by_cases low : m ≤ -half64
  · rw [if_pos low, min_eq_right (by omega), max_eq_left low, if_neg]
    rw [decide_eq_true_iff]
    omega
  · rw [if_neg low, min_comm, max_eq_right (by omega), if_pos]
    rw [decide_eq_true_iff]
    omega

/-- What an amount of so many milliseconds, and the opposite amount, are held to be. -/
inductive HeldAs (x : Float) : Option Int → Option Int → Prop
  | endless (endless : isFinite x = false) : HeldAs x none none
  | exact (m : Int) (nearest : IsNearest x m) (within : m.natAbs < half64) :
    HeldAs x (some m) (some (-m))
  | above (m : Int) (nearest : IsNearest x m) (beyond : half64 ≤ m) :
    HeldAs x (some (half64 - 1)) none
  | below (m : Int) (nearest : IsNearest x m) (beyond : m ≤ -half64) :
    HeldAs x none (some (half64 - 1))

theorem heldAs_millisecondsOf (opposite : IsOpposite x y) :
    HeldAs x (millisecondsOf? x) (millisecondsOf? y) := by
  have word : (0 : Int) < half64 := by decide
  have nearest' := opposite.nearest?_eq
  cases nearest : nearest? x with
  | none =>
    have endless : isFinite x = false := by
      unfold nearest? at nearest
      unfold isFinite
      split at nearest
      · cases nearest
      · rfl
    rw [nearest, Option.map_none] at nearest'
    simp only [millisecondsOf?, nearest, nearest']
    exact .endless endless
  | some m =>
    rw [nearest, Option.map_some] at nearest'
    have held := nearest?_eq_some_iff.mp nearest
    rw [millisecondsOf?_eq nearest, millisecondsOf?_eq nearest']
    by_cases above : half64 ≤ m
    · rw [if_neg (by omega), if_pos (by omega), min_eq_right (by omega)]
      exact .above m held above
    · by_cases below : m ≤ -half64
      · rw [if_pos below, if_neg (by omega), min_eq_right (by omega)]
        exact .below m held below
      · rw [if_neg (by omega), if_neg (by omega), min_eq_left (by omega), min_eq_left (by omega)]
        exact .exact m held (by omega)

/-- An amount is held to the nearest millisecond together with the opposite amount, unless it has no
end or is out of bounds; and out of bounds only the lower one of the two is refused. -/
theorem durations_are_exact_within_bounds (h : read amount = some x)
    (known : secondsPerUnit? unit = some seconds) :
    (∃ y, read (opposite amount) = some y ∧ IsOpposite x y) ∧
      HeldAs (x * seconds * 1000.0) (duration? (amount ++ ' ' :: unit))
        (duration? (opposite amount ++ ' ' :: unit)) := by
  obtain ⟨y, h', opposite⟩ := read_opposite h
  rw [duration?_eq h known, duration?_eq h' known]
  exact ⟨⟨y, h', opposite⟩, heldAs_millisecondsOf ((opposite.mul seconds).mul 1000.0)⟩

/-- Half a millisecond goes away from zero. -/
theorem durations_are_exact_within_bounds_half :
    read "-0.0005".toList = some (-0.0005) ∧ secondsPerUnit? "Secs".toList = some 1.0 ∧
      (∃ y, read "0.0005".toList = some y ∧ IsOpposite (-0.0005) y) ∧
        HeldAs (-0.0005 * 1.0 * 1000.0) (some (-1)) (some 1) := by
  have h : read "-0.0005".toList = some (-0.0005) := by decide +kernel
  have known : secondsPerUnit? "Secs".toList = some 1.0 := by decide +kernel
  have texts : duration? "-0.0005 Secs".toList = some (-1) ∧
      duration? "0.0005 Secs".toList = some 1 := by decide +kernel
  obtain ⟨opposite, held⟩ := durations_are_exact_within_bounds h known
  rw [← texts.1, ← texts.2]
  exact ⟨h, known, opposite, held⟩

/-- Ten million million days are more than a duration can hold, and are held nevertheless. -/
theorem long_durations_are_clamped :
    (read "1e13".toList).bind (fun x => nearest? (x * 86400.0 * 1000.0)) =
        some 864000000000000000000 ∧
      secondsPerUnit? "days".toList = some 86400.0 ∧
      duration? "1e13 days".toList = some 9223372036854775807 ∧
      duration? "-1e13 days".toList = none := by
  decide +kernel

end Plan

end GoalScript
