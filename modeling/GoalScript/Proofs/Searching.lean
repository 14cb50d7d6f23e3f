import GoalScript.Capability
import GoalScript.Proofs.Nearness
import GoalScript.Proofs.Placeholders

namespace GoalScript

namespace Text

variable {part s : List Char} {c : Char} {i : Nat}

/-- The part stands in the text behind so many characters. -/
def StandsAt (part s : List Char) (i : Nat) : Prop :=
  ∃ before after, s = before ++ part ++ after ∧ before.length = i

theorem standsAt_zero : StandsAt part s 0 ↔ part <+: s := by
  constructor
  · rintro ⟨before, after, rfl, none⟩
    rw [List.length_eq_zero_iff.mp none]
    exact List.prefix_append part after
  · rintro ⟨after, rfl⟩
    exact ⟨[], after, rfl, rfl⟩

theorem standsAt_succ : StandsAt part (c :: s) (i + 1) ↔ StandsAt part s i := by
  constructor
  · rintro ⟨before, after, split, count⟩
    obtain ⟨d, before, rfl⟩ := List.exists_cons_of_length_eq_add_one count
    exact ⟨before, after, (List.cons.inj split).2, Nat.succ.inj count⟩
  · rintro ⟨before, after, rfl, rfl⟩
    exact ⟨c :: before, after, rfl, rfl⟩

theorem not_standsAt_nil : ¬ StandsAt part [] (i + 1) := by
  rintro ⟨before, after, split, count⟩
  obtain ⟨d, before, rfl⟩ := List.exists_cons_of_length_eq_add_one count
  cases split

/-- Where a part stands it can be cut out. -/
theorem standsAt_iff :
    StandsAt part s i ↔ i + part.length ≤ s.length ∧ (s.drop i).take part.length = part := by
  constructor
  · rintro ⟨before, after, rfl, rfl⟩
    simp
  · rintro ⟨within, cut⟩
    have parts := List.take_append_drop part.length (s.drop i)
    rw [cut, List.drop_drop] at parts
    refine ⟨s.take i, s.drop (i + part.length), ?_, List.length_take_of_le (by omega)⟩
    rw [List.append_assoc, parts, List.take_append_drop]

/-- The first place is found, or there is none. -/
theorem findFrom_cases (part s : List Char) (start : Nat) :
    (findFrom part start s = none ∧ ∀ i, ¬ StandsAt part s i) ∨
      ∃ i, findFrom part start s = some (start + i) ∧ StandsAt part s i ∧
        ∀ j < i, ¬ StandsAt part s j := by
  induction s generalizing start with
  | nil =>
    cases part with
    | nil => exact .inr ⟨0, rfl, standsAt_zero.mpr List.prefix_rfl, by simp⟩
    | cons c part =>
      refine .inl ⟨rfl, fun i stands => ?_⟩
      cases i with
      | zero => exact absurd (standsAt_zero.mp stands) (by simp)
      | succ i => exact not_standsAt_nil stands
  | cons c s ih =>
    rw [findFrom]
    split
    · rename_i begins
      exact .inr ⟨0, rfl, standsAt_zero.mpr (List.isPrefixOf_iff_prefix.mp begins), by simp⟩
    · rename_i begins
      have first : ¬ StandsAt part (c :: s) 0 := fun stands =>
        begins (List.isPrefixOf_iff_prefix.mpr (standsAt_zero.mp stands))
      rcases ih (start + 1) with ⟨none, nowhere⟩ | ⟨i, found, stands, least⟩
      · refine .inl ⟨none, fun i stands => ?_⟩
        cases i with
        | zero => exact first stands
        | succ i => exact nowhere i (standsAt_succ.mp stands)
      · refine .inr ⟨i + 1, by rw [found, Nat.add_right_comm, Nat.add_assoc],
          standsAt_succ.mpr stands, fun j before stands => ?_⟩
        cases j with
        | zero => exact first stands
        | succ j => exact least j (Nat.lt_of_succ_lt_succ before) (standsAt_succ.mp stands)

end Text

namespace Capability

variable {s t : String} {a b : Value} {n : Nat}

/-- Counts below 2 ^ 53 are told apart. -/
theorem countOf_ofCount (small : n < 2 ^ 53) : countOf (ofCount n) = n := by
  obtain ⟨k, read⟩ := Number.exists_ofFloat_ofInt (i := n) small
  have made : Float.ofInt n = Float.ofNat n := rfl
  have positive : ¬ (n : Int) < 0 := by omega
  have bound : n < Number.max64 := Nat.lt_trans small (by decide)
  rw [made, decide_eq_false positive, Int.natAbs_natCast] at read
  change Number.clampedNat Number.max64 (Float.ofNat n) = n
  unfold Number.clampedNat Number.clamped
  rw [read]
  simp only [Number.floorOf_mul_two_pow, Bool.false_eq_true, if_false]
  omega

theorem invoke_length : invoke (.text t) "Length" [] false = .ok (ofCount t.length) := by
  rw [← String.length_toList]
  rfl

theorem invoke_contains : invoke (.text s) "Contains" [.text t] false =
    .ok (.bool (Text.find? t.toList s.toList).isSome) := rfl

theorem invoke_indexOf : invoke (.text s) "IndexOf" [.text t] false =
    .ok (match Text.find? t.toList s.toList with
      | some i => ofCount i
      | none => .number (-1.0)) := rfl

/-- The capability, its overloads by the number of their arguments. -/
theorem find?_substring : find? (.text s) "Substring" = some ⟨"Substring", [
    overload1 .number fun v a => .ok (ofText (substring (chars v) (countOf a) none)),
    overload2 .number .number fun v a b =>
      .ok (ofText (substring (chars v) (countOf a) (some (countOf b))))]⟩ := rfl

theorem invoke_substring (h : a.number?.isSome = true) :
    invoke (.text s) "Substring" [a] false = .ok (ofText (s.toList.drop (countOf a))) := by
  rw [invoke, find?_substring]
  simp [overload1, Overload.accepts, ArgumentKind.accepts, h, substring, chars, Value.display]

theorem invoke_substring_length (h : a.number?.isSome = true) (h' : b.number?.isSome = true) :
    invoke (.text s) "Substring" [a, b] false =
      .ok (ofText ((s.toList.drop (countOf a)).take (countOf b))) := by
  rw [invoke, find?_substring]
  simp [overload1, overload2, Overload.accepts, ArgumentKind.accepts, h, h', substring, chars,
    Value.display]

/-- The text is cut out by its length from behind so many characters of the other. -/
def CutAt (s t : String) (i : Nat) : Prop :=
  ∃ length, invoke (.text t) "Length" [] false = .ok length ∧
    invoke (.text s) "Substring" [ofCount i, length] false = .ok (.text t)

/-- Cutting a text out of another by its length gives it where it stands. -/
theorem cutAt_iff {i : Nat} (short : i < 2 ^ 53) (short' : t.length < 2 ^ 53) :
    CutAt s t i ↔ (s.toList.drop i).take t.toList.length = t.toList := by
  have cut := invoke_substring_length (s := s) (a := ofCount i) (b := ofCount t.length) rfl rfl
  rw [countOf_ofCount short, countOf_ofCount short', ← String.length_toList] at cut
  constructor
  · rintro ⟨length, counted, same⟩
    obtain rfl := Except.ok.inj (invoke_length.symm.trans counted)
    rw [← String.length_toList, cut] at same
    have texts := congrArg String.toList (Value.text.inj (Except.ok.inj same))
    rwa [String.toList_ofList] at texts
  · intro same
    refine ⟨_, invoke_length, ?_⟩
    rw [← String.length_toList, cut, same, ofText, String.ofList_toList]

/-- What `IndexOf` gives is where the text first stands, and -1 if `Contains` denies that it does;
`Substring` cuts it out there by its `Length` and nowhere before, and wherever a text is cut in two
the parts make the whole. Only a text of 2 ^ 53 characters, which no memory holds, has counts that
are not exact. -/
theorem searching_agrees_with_cutting (s t : String) :
    (invoke (.text s) "IndexOf" [.text t] false = .ok (.number (-1.0)) ↔
      invoke (.text s) "Contains" [.text t] false = .ok (.bool false)) ∧
    (invoke (.text s) "Contains" [.text t] false = .ok (.bool false) ∧
        (∀ i, ¬ Text.StandsAt t.toList s.toList i) ∨
      invoke (.text s) "Contains" [.text t] false = .ok (.bool true) ∧
        ∃ i, invoke (.text s) "IndexOf" [.text t] false = .ok (ofCount i) ∧
          i + t.length ≤ s.length ∧ Text.StandsAt t.toList s.toList i ∧
          (∀ j < i, ¬ Text.StandsAt t.toList s.toList j) ∧
          (s.length < 2 ^ 53 → CutAt s t i ∧ ∀ j < i, ¬ CutAt s t j)) ∧
    ∀ a : Value, a.number?.isSome = true → ∃ front back,
      invoke (.text s) "Substring" [.number 0.0, a] false = .ok (.text front) ∧
        invoke (.text s) "Substring" [a] false = .ok (.text back) ∧ front ++ back = s := by
  rw [invoke_indexOf, invoke_contains]
  refine ⟨?_, ?_, fun a h => ?_⟩
  · cases Text.find? t.toList s.toList with
    | none => simp
    | some i => simp [ofCount, Number.ofNat_ne_neg_one]
  · rcases Text.findFrom_cases t.toList s.toList 0 with
      ⟨none, nowhere⟩ | ⟨i, found, stands, least⟩
    · rw [Text.find?, none]
      exact .inl ⟨rfl, nowhere⟩
    · rw [Nat.zero_add] at found
      rw [Text.find?, found]
      have within := (Text.standsAt_iff.mp stands).1
      simp only [String.length_toList] at within
      refine .inr ⟨rfl, i, rfl, within, stands, least, fun short => ⟨?_, fun j before cut => ?_⟩⟩
      · exact (cutAt_iff (by omega) (by omega)).mpr (Text.standsAt_iff.mp stands).2
      · refine least j before (Text.standsAt_iff.mpr ⟨?_, ?_⟩)
        · simp only [String.length_toList]
          omega
        · exact (cutAt_iff (by omega) (by omega)).mp cut
  · have zero : countOf (.number 0.0) = 0 := by decide +kernel
    refine ⟨_, _, invoke_substring_length rfl h, invoke_substring h, ?_⟩
    rw [zero, List.drop_zero, ← String.ofList_append, List.take_append_drop, String.ofList_toList]

theorem searching_agrees_with_cutting_accented :
    "naïve ïve".length < 2 ^ 53 ∧ CutAt "naïve ïve" "ïve" 2 ∧
      (∀ j < 2, ¬ CutAt "naïve ïve" "ïve" j) ∧
      (Value.number 2.5).number?.isSome = true ∧ ∃ front back,
        invoke (.text "naïve ïve") "Substring" [.number 0.0, .number 2.5] false =
          .ok (.text front) ∧
        invoke (.text "naïve ïve") "Substring" [.number 2.5] false = .ok (.text back) ∧
        front ++ back = "naïve ïve" := by
  have short : "naïve ïve".length < 2 ^ 53 := by decide +kernel
  have second : Text.find? "ïve".toList "naïve ïve".toList = some 2 := by decide +kernel
  obtain ⟨-, found, parts⟩ := searching_agrees_with_cutting "naïve ïve" "ïve"
  rw [invoke_contains, invoke_indexOf, second] at found
  rcases found with ⟨none, -⟩ | ⟨-, i, index, within, -, -, exact⟩
  · cases none
  · have same := congrArg countOf (Except.ok.inj index)
    rw [countOf_ofCount (by decide), countOf_ofCount (by omega)] at same
    obtain ⟨cut, least⟩ := exact short
    rw [← same] at cut least
    exact ⟨short, cut, least, rfl, parts (.number 2.5) rfl⟩

end Capability

end GoalScript
