import GoalScript.Proofs.Reading
import GoalScript.Proofs.Storage

namespace GoalScript

theorem Resolved.exists_of_isOk {α : Type} {r : Resolved α} (h : r.isOk = true) :
    ∃ a, r = .ok a := by
  cases r with
  | error e => cases h
  | ok a => exact ⟨a, rfl⟩

/-- The expressions start from different variables, or part before either of them ends. -/
def Plan.Apart (p q : Plan) : Prop := q.key = p.key → GoalScript.Apart p.route q.route

instance (p q : Plan) : Decidable (p.Apart q) :=
  inferInstanceAs (Decidable (q.key = p.key → GoalScript.Apart p.route q.route))

namespace Store

variable {s t : Store} {expr : String} {plan : Plan} {v w : Value}

/-- The expression leads to a value by members and elements that are there. -/
structure Locates (s : Store) (expr : String) (plan : Plan) (w : Value) : Prop where
  parsed : Plan.parse expr = .ok plan
  direct : plan.IsDirect
  plain : plan.arithmetic = none
  free : ¬ plan.IsReserved
  leads : ∃ x, s.lookup? plan.key = some x ∧ x.isSet = true ∧ Value.Leads plan.route x.value w

/-- A put that is no put to a setting writes at the end of its path in one variable. -/
theorem put_cases (parsed : Plan.parse expr = .ok plan) (other : plan.key ≠ "settings")
    (h : s.put expr v = .ok t) :
    plan.arithmetic = none ∧ ¬ plan.IsReserved ∧ ∃ path x, s.places plan = .ok path ∧
      Value.Written v.structured path (s.current plan.key (s.scopeOf expr)) x.value ∧
      x.isSet = true ∧ t.lookup? plan.key = some x := by
  obtain ⟨plain, ⟨settings, -⟩ | ⟨free, wrote⟩⟩ := writeTo_of_parse parsed h
  · exact absurd settings other
  · obtain ⟨path, new, located, assigned, rfl⟩ := writeVariable_cases wrote
    refine ⟨plain, free, path, s.written plan (s.scopeOf expr) new, located,
      Value.written_of_assign assigned, rfl, ?_⟩
    have found := s.lookup?_setInScope_scopeOf expr (s.written plan (s.scopeOf expr) new)
      (s.written plan (s.scopeOf expr) new) (s.writeEvent plan.key (s.scopeOf expr)) new
    rwa [rootOf_of_parse parsed] at found

/-- Only the variable that an expression starts from changes when it is put to. -/
theorem inScope_of_put {key : String} (parsed : Plan.parse expr = .ok plan)
    (h : s.put expr v = .ok t) (scope : Scope) (differs : key ≠ plan.key) :
    t.inScope key scope = s.inScope key scope := by
  obtain ⟨-, ⟨-, wrote⟩ | ⟨-, wrote⟩⟩ := writeTo_of_parse parsed h
  · exact inScope_of_writeSetting wrote key scope
  · exact inScope_of_writeVariable wrote (.inl differs)

/-- An expression that leads to a value stands for it. -/
theorem Locates.getValue (h : s.Locates expr plan w) : s.getValue expr = .ok w := by
  obtain ⟨x, found, set, leads⟩ := h.leads
  apply getValue_of_segmentsBy h.parsed h.plain h.free found set
  exact Value.segmentsBy_of_follow? h.direct.map_place? leads.follow?

theorem lookup?_of_inScope {key : String}
    (same : ∀ scope, t.inScope key scope = s.inScope key scope) :
    t.lookup? key = s.lookup? key := by
  rw [lookup?_eq, lookup?_eq, same, same]

/-- What is read in other places than a put writes to can be read there afterwards. -/
theorem Locates.of_put {other : String} {plan' : Plan} (here : s.Locates other plan' w)
    (parsed : Plan.parse expr = .ok plan) (h : s.put expr v = .ok t)
    (apart : plan'.key = plan.key → ∀ path, s.places plan = .ok path → Apart path plan'.route) :
    t.Locates other plan' w := by
  refine { here with leads := ?_ }
  obtain ⟨x, found, set, leads⟩ := here.leads
  by_cases same : plan'.key = plan.key
  · have setting : plan.key ≠ "settings" := fun settings =>
      here.free (.inr (.inr (same.trans settings)))
    obtain ⟨-, -, path, y, located, written, set', found'⟩ := put_cases parsed setting h
    rw [same] at found ⊢
    rw [current_scopeOf parsed found set] at written
    exact ⟨y, found', set', leads.of_written written (apart same path located)⟩
  · refine ⟨x, ?_, set, leads⟩
    rw [← found]
    exact lookup?_of_inScope fun scope => inScope_of_put parsed h scope same

/-- A direct plan writes where it leads. -/
theorem places_of_direct {path : List Place} (direct : plan.IsDirect)
    (h : s.places plan = .ok path) : path = plan.route := by
  have leads := (map_placeBy_of_places h).symm.trans (direct.map_placeBy s.getValue)
  exact (List.map_inj_right (fun _ _ => Option.some.inj)).mp leads

/-- What is read through an expression after a put to it is what has been put, texts that spell out
lists and objects taken for those. -/
theorem written_value_is_read (s t : Store) (expr : String) (plan : Plan) (v : Value)
    (parsed : Plan.parse expr = .ok plan) (direct : plan.IsDirect) (other : plan.key ≠ "settings")
    (h : s.put expr v = .ok t) : t.getValue expr = .ok v.structured := by
  obtain ⟨plain, free, path, x, located, written, set, found⟩ := put_cases parsed other h
  obtain rfl := places_of_direct direct located
  apply getValue_of_segmentsBy parsed plain free found set
  exact Value.segmentsBy_of_follow? direct.map_place? written.follow?

/-- A list that was made on the way, in a shared variable, under the name that was there. -/
theorem written_value_is_read_in_new_list :
    let config : Variable := { name := "config", value := .object [("Deep", .null)] }
    let s : Store := { shared := { vars := [("config", config)] } }
    ∃ t, s.put "config.deep[1]" (.text "[true]") = .ok t ∧
      t.getValue "config.deep[1]" = .ok (.list [.bool true]) := by
  intro config s
  have done : (s.put "config.deep[1]" (.text "[true]")).isOk = true := by decide +kernel
  obtain ⟨t, h⟩ := Resolved.exists_of_isOk done
  let plan : Plan := {
    expr := "config.deep[1]", root := "config"
    segments := [.property "deep", .index (.position 1)], arithmetic := none }
  have parsed : Plan.parse "config.deep[1]" = .ok plan := by with_unfolding_all rfl
  refine ⟨t, h, ?_⟩
  exact written_value_is_read s t _ plan _ parsed (by decide +kernel) (by decide +kernel) h

/-- What is read through other expressions after a put is what was read before. -/
theorem other_values_are_kept (s t : Store) (expr : String) (plan : Plan) (v : Value)
    (parsed : Plan.parse expr = .ok plan) (direct : plan.IsDirect) (h : s.put expr v = .ok t) :
    (∀ other plan' w, s.Locates other plan' w → plan.Apart plan' →
      s.getValue other = .ok w ∧ t.getValue other = .ok w) ∧
    ∀ key scope, key ≠ plan.key → t.inScope key scope = s.inScope key scope := by
  refine ⟨fun other plan' w here apart => ⟨here.getValue, ?_⟩, fun key scope differs =>
    inScope_of_put parsed h scope differs⟩
  have there : t.Locates other plan' w := by
    apply here.of_put parsed h
    intro same path located
    obtain rfl := places_of_direct direct located
    exact apart same
  exact there.getValue

/-- A list grows, and a name beside it is read as before. -/
theorem other_values_are_kept_beside_list :
    let user : Variable := {
      name := "user", value := .object [("name", .text "Ann"), ("tags", .list [])] }
    let s : Store := { memory := { vars := [("user", user)] } }
    ∃ t, s.put "user.tags[1]" (.text "new") = .ok t ∧
      s.getValue "User['Name']" = .ok (.text "Ann") ∧
      t.getValue "User['Name']" = .ok (.text "Ann") := by
  intro user s
  let tag : Plan := {
    expr := "user.tags[1]", root := "user"
    segments := [.property "tags", .index (.position 1)], arithmetic := none }
  let name : Plan := {
    expr := "User['Name']", root := "User"
    segments := [.index (.key "Name")], arithmetic := none }
  have done : (s.put "user.tags[1]" (.text "new")).isOk = true := by decide +kernel
  obtain ⟨t, h⟩ := Resolved.exists_of_isOk done
  have parsed : Plan.parse "user.tags[1]" = .ok tag := by with_unfolding_all rfl
  have leads : Value.Leads name.route user.value (.text "Ann") := by
    have denotes : Value.Denotes [("name", .text "Ann"), ("tags", .list [])] "Name" "name"
        (.text "Ann") := ⟨by with_unfolding_all rfl, .inr (by decide +kernel)⟩
    exact .member denotes (.here _)
  have found : s.lookup? name.key = some user := by
    have key : name.key = "user" := by decide +kernel
    rw [key]
    rfl
  have here : s.Locates "User['Name']" name (.text "Ann") :=
    ⟨by with_unfolding_all rfl, by decide +kernel, rfl, by decide +kernel, user, found, rfl, leads⟩
  refine ⟨t, h, ?_⟩
  exact (other_values_are_kept s t _ tag _ parsed (by decide +kernel) h).1 _ name _ here
    (by decide +kernel)

end Store

end GoalScript
