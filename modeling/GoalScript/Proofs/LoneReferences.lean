import GoalScript.Proofs.Interpolation

namespace GoalScript

namespace Span

theorem ofList_reference (name : List Char) :
    String.ofList (reference name) = "%" ++ String.ofList name ++ "%" := by
  apply String.toList_inj.mp
  simp [reference]

theorem toList_reference (e : String) : ("%" ++ e ++ "%").toList = reference e.toList := by
  simp [reference]

/-- A reference is bare at both ends. -/
theorem trim_reference (name : List Char) : Text.trim (reference name) = reference name := by
  apply Text.trim_of_solid
  exact ⟨⟨'%', rfl, by decide⟩, Text.last_append ('%' :: name) ⟨'%', rfl, by decide⟩⟩

end Span

namespace Store

open GoalScript.Span

/-- Between percent signs on a line, an expression that has none has the same value as a text and
as an expression. With one, the text is what the part before it displays, followed by what the rest
becomes when it is read for references on its own. -/
theorem lone_references_are_values (s : Store) (e : String)
    (begins : ∃ c ∈ e.toList.head?, Text.isAlphabetic c = true ∨ c = '_')
    (line : '\n' ∉ e.toList) :
    ('%' ∉ e.toList → s.resolveText ("%" ++ e ++ "%") = s.getValue ("%" ++ e ++ "%")) ∧
      ∀ front back, e.toList = front ++ '%' :: back → '%' ∉ front →
        s.resolveText ("%" ++ e ++ "%") = do
          let v ← s.getValue ("%" ++ String.ofList front ++ "%")
          let after ← s.interpolate (back ++ ['%']) 0 (references (back ++ ['%']))
          return .text (String.ofList (v.display.toList ++ after)) := by
  have begins : BeginsName e.toList := by
    obtain ⟨c, head, letter⟩ := begins
    exact ⟨c, head, letter.imp_right fun same => by simp [same]⟩
  constructor
  · intro plain
    have cut : Cut ("%" ++ e ++ "%").toList [⟨[], e.toList⟩] [] := by
      have whole := Cut.nil.reference ⟨begins, plain, line⟩
      rwa [List.append_nil, ← toList_reference] at whole
    have lone : Text.trim ("%" ++ e ++ "%").toList = reference e.toList := by
      rw [toList_reference, trim_reference]
    rw [resolveText_of_lone cut lone, referenceValue, ofList_reference, String.ofList_toList]
  · intro front back split plain
    have named : IsName front := by
      rw [split] at begins line
      exact ⟨begins.of_append, plain, fun mem => line (List.mem_append_left _ mem)⟩
    have torn : ("%" ++ e ++ "%").toList = reference front ++ (back ++ ['%']) := by
      simp [split, reference]
    obtain ⟨stretches, tail, rest⟩ := exists_cut (back ++ ['%'])
    have cut := rest.reference named
    rw [← torn] at cut
    have many (stretch : Stretch) (one : ⟨[], front⟩ :: stretches = [stretch]) :
        Text.trim ("%" ++ e ++ "%").toList ≠ reference stretch.name := by
      obtain ⟨rfl, -⟩ := List.cons.inj one
      intro lone
      rw [toList_reference, trim_reference, split] at lone
      have lengths := congrArg List.length lone
      simp only [length_reference, List.length_append, List.length_cons] at lengths
      omega
    have later := interpolate_eq s stretches tail []
    rw [List.nil_append, ← rest.joined, List.length_nil, ← rest.places] at later
    rw [resolveText_of_many cut many, List.mapM_cons, referenceValue, ofList_reference, later]
    cases s.getValue ("%" ++ String.ofList front ++ "%") with
    | error e => rfl
    | ok v =>
      cases stretches.mapM s.referenceValue with
      | error e => rfl
      | ok values => simp [replaced, bind, Except.bind, pure, Except.pure, Except.map]

/-- A number stays a number, and a sign inside makes a text of the variable before it. -/
theorem lone_references_are_values_number :
    let s : Store := { memory := { vars := [
      ("name", { name := "name", value := .text "stepwise" }),
      ("n", { name := "n", value := .number 4.0 })] } }
    s.resolveText ("%" ++ "n" ++ "%") = .ok (.number 4.0) ∧
      s.resolveText ("%" ++ "name%n" ++ "%") = .ok (.text "stepwisen%") := by
  intro s
  have short := lone_references_are_values s "n" ⟨'n', rfl, by decide⟩ (by decide)
  have torn := lone_references_are_values s "name%n" ⟨'n', rfl, by decide⟩ (by decide)
  constructor
  · rw [short.1 (by decide)]
    with_unfolding_all rfl
  · have first : s.getValue ("%" ++ String.ofList "name".toList ++ "%") =
        .ok (.text "stepwise") := by
      with_unfolding_all rfl
    have rest : s.interpolate ("n".toList ++ ['%']) 0 (references ("n".toList ++ ['%'])) =
        .ok "n%".toList := by
      with_unfolding_all rfl
    have joined : String.ofList ((Value.display (.text "stepwise")).toList ++ "n%".toList) =
        "stepwisen%" := by
      decide +kernel
    rw [torn.2 "name".toList "n".toList (by decide) (by decide), first, ← joined]
    simp only [rest, bind, Except.bind]
    rfl

/-- The sign of an argument ends the reference: what is left of the method call is an error, where
the expression has a value. -/
theorem references_in_arguments_are_torn :
    let s : Store := { memory := { vars := [
      ("name", { name := "name", value := .text "stepwise" }),
      ("n", { name := "n", value := .number 4.0 })] } }
    (∃ plan, Plan.parse "name.Substring(%n%)" = .ok plan ∧ plan.root = "name") ∧
      s.getValue "%name.Substring(%n%)%" = .ok (.text "wise") ∧
      s.resolveText "%name.Substring(%n%)%" = .error
        (.invalidExpression "%name.Substring(%" "unbalanced parentheses in 'Substring('") := by
  intro s
  exact ⟨Resolved.exists_of_map (by decide +kernel), by with_unfolding_all rfl,
    by with_unfolding_all rfl⟩

end Store

end GoalScript
