import GoalScript.Proofs.References
import GoalScript.Proofs.Writes

namespace GoalScript

namespace Span

/-- The text with what the values display in place of the references. -/
def replaced (stretches : List Stretch) (values : List Value) (tail : List Char) : List Char :=
  (List.zipWith (fun stretch v => stretch.before ++ v.display.toList) stretches values).flatten ++
    tail

/-- The text is one reference, but for blanks around it. -/
def IsLone (text : List Char) : Prop := ∃ name, IsName name ∧ Text.trim text = reference name

theorem slice_append (before part after : List Char) :
    slice ⟨before.length, before.length + part.length⟩ (before ++ (part ++ after)) = part := by
  simp [slice]

end Span

namespace Store

open GoalScript.Span

variable {s : Store} {text : String} {stretches : List Stretch} {tail : List Char}

def referenceValue (s : Store) (stretch : Stretch) : Resolved Value :=
  s.getValue (String.ofList (reference stretch.name))

/-- One stretch is written out before the rest of the text is. -/
theorem interpolate_stretch (s : Store) (stretch : Stretch) (spans : List Span)
    (before after : List Char) :
    s.interpolate (before ++ (stretch.text ++ after)) before.length
        (⟨before.length + stretch.before.length, before.length + stretch.text.length⟩ :: spans) =
      (do
        let v ← s.referenceValue stretch
        let rest ← s.interpolate (before ++ (stretch.text ++ after))
          (before ++ stretch.text).length spans
        return stretch.before ++ v.display.toList ++ rest) := by
  have kept := slice_append before stretch.before (reference stretch.name ++ after)
  have found := slice_append (before ++ stretch.before) (reference stretch.name) after
  simp only [List.append_assoc, List.length_append] at found
  simp only [interpolate, interpolateBy, Stretch.text, List.append_assoc, List.length_append, kept,
    ← Nat.add_assoc, found, referenceValue]

theorem interpolate_eq (s : Store) (stretches : List Stretch) (tail before : List Char) :
    s.interpolate (before ++ (stretches.flatMap Stretch.text ++ tail)) before.length
        (Stretch.spans before.length stretches) =
      (stretches.mapM s.referenceValue).map (replaced stretches · tail) := by
  induction stretches generalizing before with
  | nil => simp [Stretch.spans, interpolate, interpolateBy, replaced, pure, Except.pure, Except.map]
  | cons stretch rest ih =>
    have later := ih (before ++ stretch.text)
    rw [List.append_assoc] at later
    rw [List.flatMap_cons, List.append_assoc, Stretch.spans, interpolate_stretch,
      ← List.length_append, later, List.mapM_cons]
    cases s.referenceValue stretch with
    | error e => rfl
    | ok v =>
      cases rest.mapM s.referenceValue with
      | error e => rfl
      | ok values => simp [replaced, bind, Except.bind, pure, Except.pure, Except.map]

theorem slice_of_cut {stretch : Stretch} (cut : Cut text.toList [stretch] tail) :
    slice ⟨0 + stretch.before.length, 0 + stretch.text.length⟩ text.toList =
      reference stretch.name := by
  have joined : text.toList = stretch.before ++ (reference stretch.name ++ tail) := by
    simpa [Stretch.text] using cut.joined
  rw [joined, Nat.zero_add, Nat.zero_add, Stretch.text, List.length_append, slice_append]

/-- A lone reference gives its value as it is. -/
theorem resolveText_of_lone {stretch : Stretch} (cut : Cut text.toList [stretch] tail)
    (lone : Text.trim text.toList = reference stretch.name) :
    s.resolveText text = s.referenceValue stretch := by
  simp only [resolveText, resolveTextBy, cut.places, Stretch.spans, slice_of_cut cut, lone,
    beq_self_eq_true, if_true, referenceValue]

/-- Any other text gives a text, with the values shown in the places of the references. -/
theorem resolveText_of_many (cut : Cut text.toList stretches tail)
    (many : ∀ stretch, stretches = [stretch] → Text.trim text.toList ≠ reference stretch.name) :
    s.resolveText text = (stretches.mapM s.referenceValue).map fun values =>
      .text (String.ofList (replaced stretches values tail)) := by
  have whole := interpolate_eq s stretches tail []
  rw [List.nil_append, ← cut.joined, List.length_nil] at whole
  have written : (do return Value.text (String.ofList
        (← s.interpolate text.toList 0 (Stretch.spans 0 stretches)))) =
      (stretches.mapM s.referenceValue).map fun values =>
        .text (String.ofList (replaced stretches values tail)) := by
    rw [whole]
    cases stretches.mapM s.referenceValue <;> rfl
  rw [← written]
  rcases stretches with - | ⟨stretch, - | ⟨next, rest⟩⟩
  · simp [resolveText, resolveTextBy, cut.places, Stretch.spans, interpolate, interpolateBy, pure,
      Except.pure, bind, Except.bind]
  · have other : (reference stretch.name == Text.trim text.toList) = false :=
      beq_eq_false_iff_ne.mpr (many stretch rfl).symm
    simp only [resolveText, resolveTextBy, cut.places, Stretch.spans, slice_of_cut cut, other,
      Bool.false_eq_true, if_false, interpolate]
  · simp only [resolveText, resolveTextBy, cut.places, Stretch.spans, interpolate]

/-- The references of a text stand apart, none is missed, and they are found line by line. A text
that is not a reference alone has what their values display in their places, with all else as it
was; and where a reference has no value, the first such one is the error. -/
theorem references_are_replaced (s : Store) (text : String) :
    Finds text.toList (references text.toList) ∧
      (∀ first second, text.toList = first ++ '\n' :: second → references text.toList =
        references first ++ (references second).map (shift (first.length + 1))) ∧
      (∃ stretches tail, Cut text.toList stretches tail) ∧
      ∀ stretches tail, Cut text.toList stretches tail →
        (∀ values, ¬ IsLone text.toList →
          List.Forall₂ (fun stretch v => s.referenceValue stretch = .ok v) stretches values →
          s.resolveText text = .ok (.text (String.ofList (replaced stretches values tail)))) ∧
        ∀ earlier failing later e, stretches = earlier ++ failing :: later →
          (∀ stretch ∈ earlier, ∃ v, s.referenceValue stretch = .ok v) →
          s.referenceValue failing = .error e → s.resolveText text = .error e := by
  refine ⟨finds_references _, ?_, exists_cut _, fun stretches tail cut => ⟨?_, ?_⟩⟩
  · intro first second split
    rw [split, references_lines]
  · intro values many resolve
    have other (stretch : Stretch) (one : stretches = [stretch]) :
        Text.trim text.toList ≠ reference stretch.name := by
      intro lone
      exact many ⟨stretch.name, cut.named stretch (by simp [one]), lone⟩
    rw [resolveText_of_many cut other, Resolved.mapM_eq_ok_iff.mpr resolve]
    rfl
  · rintro earlier failing later e rfl succeed fails
    by_cases lone : earlier ++ failing :: later = [failing] ∧
      Text.trim text.toList = reference failing.name
    · obtain ⟨one, lone⟩ := lone
      rw [resolveText_of_lone (one ▸ cut) lone, fails]
    · have other (stretch : Stretch) (one : earlier ++ failing :: later = [stretch]) :
          Text.trim text.toList ≠ reference stretch.name := by
        intro same
        have mem : failing ∈ earlier ++ failing :: later := by simp
        obtain rfl : failing = stretch := by simpa [one] using mem
        exact lone ⟨one, same⟩
      rw [resolveText_of_many cut other, Resolved.mapM_of_error succeed fails]
      rfl

/-- A value that looks like a reference is not read again, and a percent sign before a blank stays.
Of two members that are not there the first is the error. -/
theorem references_are_replaced_once :
    let name : Variable := { name := "name", value := .text "%name%" }
    let s : Store := { memory := { vars := [("name", name)] } }
    s.resolveText "100% %name%!" = .ok (.text "100% %name%!") ∧
      s.resolveText "%name.first% %name.second%" =
        .error (.propertyNotFound "first" "string" none) := by
  intro name s
  constructor
  · have cut : Cut "100% %name%!".toList [⟨"100% ".toList, "name".toList⟩] ['!'] :=
      ⟨by with_unfolding_all rfl, by decide, by with_unfolding_all rfl⟩
    have many : ¬ IsLone "100% %name%!".toList := by
      rintro ⟨inner, named, same⟩
      cases (List.cons.inj same).1
    have resolves : s.referenceValue ⟨"100% ".toList, "name".toList⟩ = .ok (.text "%name%") := by
      with_unfolding_all rfl
    have written : replaced [⟨"100% ".toList, "name".toList⟩] [.text "%name%"] ['!'] =
        "100% %name%!".toList := by
      decide +kernel
    have resolved := ((references_are_replaced s _).2.2.2 _ _ cut).1 _ many (.cons resolves .nil)
    rw [written, String.ofList_toList] at resolved
    exact resolved
  · have cut : Cut "%name.first% %name.second%".toList
        [⟨[], "name.first".toList⟩, ⟨[' '], "name.second".toList⟩] [] :=
      ⟨by with_unfolding_all rfl, by decide, by with_unfolding_all rfl⟩
    have fails : s.referenceValue ⟨[], "name.first".toList⟩ =
        .error (.propertyNotFound "first" "string" none) := by
      with_unfolding_all rfl
    exact ((references_are_replaced s _).2.2.2 _ _ cut).2 [] _ _ _ rfl (List.forall_mem_nil _) fails

end Store

end GoalScript
