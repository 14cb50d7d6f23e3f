import GoalScript.Proofs.ReadBack

namespace GoalScript.Store

variable {s t : Store} {expr : String} {plan : Plan} {v : Value}

/-- What is read after a put through words in brackets is what has been put, if the words mean what
they meant, and if on the way each leads a reader where it leads a writer. -/
theorem written_value_is_read_through_words (s t : Store) (expr : String) (plan : Plan) (v : Value)
    (parsed : Plan.parse expr = .ok plan) (other : plan.key ≠ "settings")
    (h : s.put expr v = .ok t)
    (steady : ∀ word m, Plan.Looks word plan.segments → s.getValue word = .ok m →
      t.getValue word = .ok m)
    (mirrored : Value.Mirrored s.getValue plan.segments (s.current plan.key (s.scopeOf expr))) :
    t.getValue expr = .ok v.structured := by
  obtain ⟨plain, free, path, x, located, written, set, found⟩ := put_cases parsed other h
  apply getValue_of_segmentsBy parsed plain free found set
  apply Value.segmentsBy_of_written written (map_placeBy_of_places located) mirrored
  exact steady

/-- A word is the name of no member, and what it means is the name of one. -/
theorem written_value_is_read_through_words_in_object :
    let config : Variable := { name := "config", value := .object [("b", .text "old")] }
    let word : Variable := { name := "which", value := .text "b" }
    let s : Store := { memory := { vars := [("config", config), ("which", word)] } }
    ∃ t, s.put "config[which]" (.text "new") = .ok t ∧
      t.getValue "config[which]" = .ok (.text "new") := by
  intro config word s
  let plan : Plan := {
    expr := "config[which]", root := "config", segments := [.index (.lookup "which")]
    arithmetic := none }
  let name : Plan := { expr := "which", root := "which", segments := [], arithmetic := none }
  have done : (s.put "config[which]" (.text "new")).isOk = true := by decide +kernel
  obtain ⟨t, h⟩ := Resolved.exists_of_isOk done
  have parsed : Plan.parse "config[which]" = .ok plan := by with_unfolding_all rfl
  have key : plan.key = "config" := by decide +kernel
  have key' : name.key = "which" := by decide +kernel
  have found : s.lookup? plan.key = some config := by
    rw [key]
    rfl
  have found' : s.lookup? name.key = some word := by
    rw [key']
    rfl
  have here : s.Locates "which" name (.text "b") :=
    ⟨by with_unfolding_all rfl, by decide +kernel, rfl, by decide +kernel, word, found', rfl,
      .here _⟩
  have there : t.Locates "which" name (.text "b") :=
    here.of_put parsed h fun same => absurd same (by decide +kernel)
  refine ⟨t, h, written_value_is_read_through_words s t _ plan _ parsed (by decide +kernel) h ?_ ?_⟩
  · intro word' m looks meant
    obtain rfl : word' = "which" := by simpa [Plan.Looks, plan] using looks
    rw [there.getValue, ← here.getValue, meant]
  · rw [current_scopeOf parsed found rfl]
    refine ⟨?_, fun place _ => trivial⟩
    rintro word' m members same meant ⟨⟩
    obtain rfl : word' = "which" := by simpa using same.symm
    obtain rfl := Except.ok.inj (meant.symm.trans here.getValue)
    refine .inr ⟨fun n led => ?_, fun name u found => ?_⟩
    · cases led
    · have none : Value.findMember? [("b", Value.text "old")] "which" = none := by
        with_unfolding_all rfl
      rw [none] at found
      cases found

/-- Where a member has the word as its name and the word means another member, the member with the
name is read, and is what it was. -/
theorem member_hides_meaning {word name : String} {members : List (String × Value)} {m old : Value}
    (parsed : Plan.parse expr = .ok plan) (path : plan.segments = [.index (.lookup word)])
    (other : plan.key ≠ "settings") (h : s.put expr v = .ok t)
    (stored : s.current plan.key (s.scopeOf expr) = .object members)
    (hides : Value.Denotes members word name old) (meant : s.getValue word = .ok m)
    (elsewhere : Value.storedName members (placeOfWord word m).name ≠ name) :
    t.getValue expr = .ok old := by
  obtain ⟨plain, free, places, x, located, written, set, found⟩ := put_cases parsed other h
  obtain rfl : places = [placeOfWord word m] := by
    have led := (map_placeBy_of_places located).symm
    rw [path, List.map_singleton] at led
    obtain ⟨place, rfl, same⟩ := List.map_eq_singleton_iff.mp led
    simp only [Segment.placeBy, meant, Option.some.injEq] at same
    rw [same]
  apply getValue_of_segmentsBy parsed plain free found set
  rw [stored] at written
  generalize placeOfWord word m = place at written elsewhere
  generalize x.value = new at written
  cases written with
  | @member _ inner members' _ _ target below =>
    cases target
    have kept := (hides.insert_of_ne (v := inner) elsewhere).found
    rw [path]
    simp [segmentsBy, segmentBy, indexBy, Value.member?, kept, Resolved.bind_eq_ok]
  | element target => cases target

/-- The word is the name of a member and means another, so that the first is read and the second
written. -/
theorem written_value_is_hidden :
    let config : Variable := {
      name := "config", value := .object [("b", .text "old"), ("which", .text "kept")] }
    let word : Variable := { name := "which", value := .text "b" }
    let s : Store := { memory := { vars := [("config", config), ("which", word)] } }
    ∃ t, s.put "config[which]" (.text "new") = .ok t ∧
      t.getValue "config[which]" = .ok (.text "kept") ∧
      t.getValue "config[which]" ≠ .ok (Value.text "new").structured := by
  intro config word s
  let plan : Plan := {
    expr := "config[which]", root := "config", segments := [.index (.lookup "which")]
    arithmetic := none }
  let name : Plan := { expr := "which", root := "which", segments := [], arithmetic := none }
  have done : (s.put "config[which]" (.text "new")).isOk = true := by decide +kernel
  obtain ⟨t, h⟩ := Resolved.exists_of_isOk done
  have parsed : Plan.parse "config[which]" = .ok plan := by with_unfolding_all rfl
  have key : plan.key = "config" := by decide +kernel
  have key' : name.key = "which" := by decide +kernel
  have found : s.lookup? plan.key = some config := by
    rw [key]
    rfl
  have found' : s.lookup? name.key = some word := by
    rw [key']
    rfl
  have here : s.Locates "which" name (.text "b") :=
    ⟨by with_unfolding_all rfl, by decide +kernel, rfl, by decide +kernel, word, found', rfl,
      .here _⟩
  have stored : s.current plan.key (s.scopeOf "config[which]") = config.value :=
    current_scopeOf parsed found rfl
  have hides : Value.Denotes [("b", .text "old"), ("which", .text "kept")] "which" "which"
      (.text "kept") := ⟨by with_unfolding_all rfl, .inl rfl⟩
  have read := member_hides_meaning parsed rfl (by decide +kernel) h stored hides here.getValue
    (by decide +kernel)
  refine ⟨t, h, read, ?_⟩
  rw [read]
  intro same
  have spelled : (Value.text "new").structured = .text "new" := by
    with_unfolding_all rfl
  rw [spelled] at same
  exact absurd same (by simp)

end GoalScript.Store
