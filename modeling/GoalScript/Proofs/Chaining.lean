import GoalScript.Proofs.Naming
import GoalScript.Query

namespace GoalScript

namespace Text

variable {p : Char → Bool} {t : List Char}

/-- A maximal word ends at the latest where a text begins that cannot go on with it. -/
theorem takeWhile_append_of_stop (stop : ∀ c ∈ t.head?, p c = false) (s : List Char) :
    (s ++ t).takeWhile p = s.takeWhile p := by
  induction s with
  | nil =>
    cases t with
    | nil => rfl
    | cons c t => simp [stop c rfl]
  | cons d s ih => simp [List.takeWhile_cons, ih]

theorem dropWhile_append_of_stop (stop : ∀ c ∈ t.head?, p c = false) (s : List Char) :
    (s ++ t).dropWhile p = s.dropWhile p ++ t := by
  induction s with
  | nil =>
    cases t with
    | nil => rfl
    | cons c t => simp [stop c rfl]
  | cons d s ih =>
    simp only [List.cons_append, List.dropWhile_cons, ih]
    split <;> rfl

theorem trimRightWhile_append (other : ∃ c ∈ t, p c = false) (s : List Char) :
    trimRightWhile p (s ++ t) = s ++ trimRightWhile p t := by
  obtain ⟨c, mem, other⟩ := other
  have some : ¬ (t.reverse.dropWhile p).isEmpty = true := by
    intro none
    have dropped := List.dropWhile_eq_nil_iff.mp (List.isEmpty_iff.mp none) c (by simpa using mem)
    rw [other] at dropped
    cases dropped
  rw [trimRightWhile, List.reverse_append, List.dropWhile_append, if_neg some, List.reverse_append,
    List.reverse_reverse]
  rfl

theorem trim_of_begins (begins : ∃ c ∈ t.head?, isBlank c = false) : trim t = trimRight t := by
  obtain ⟨c, head, visible⟩ := begins
  obtain ⟨rest, rfl⟩ := List.head?_eq_some_iff.mp head
  rw [trim, trimWhile, List.dropWhile_cons_of_neg (by simp [visible])]
  rfl

theorem head?_trim (begins : ∃ c ∈ t.head?, isBlank c = false) : (trim t).head? = t.head? := by
  have trimmed := trim_of_begins begins
  obtain ⟨c, head, visible⟩ := begins
  obtain ⟨rest, rfl⟩ := List.head?_eq_some_iff.mp head
  rw [trimmed, trimRight, trimRightWhile, List.reverse_cons,
    dropWhile_append_of_stop (by simpa using visible), List.reverse_append]
  rfl

/-- What has no blanks around it does not begin with one. -/
theorem begins_of_trim {s : List Char} (bare : trim s = s) (some : s ≠ []) :
    ∃ c ∈ s.head?, isBlank c = false := by
  obtain ⟨c, rest, rfl⟩ := List.exists_cons_of_ne_nil some
  refine ⟨c, rfl, Bool.eq_false_iff.mpr fun blank => ?_⟩
  have later : trim (c :: rest) = trim rest := by
    rw [trim, trimWhile, List.dropWhile_cons_of_pos blank]
    rfl
  have short := length_trim_le rest
  rw [← later, bare, List.length_cons] at short
  omega

/-- Nothing is stripped where a bare text meets one that begins without a blank. -/
theorem trim_append_of_begins {s : List Char} (bare : trim s = s)
    (begins : ∃ c ∈ t.head?, isBlank c = false) : trim (s ++ t) = s ++ trim t := by
  by_cases none : s = []
  · rw [none, List.nil_append, List.nil_append]
  · have whole := head_append (begins_of_trim bare none) t
    have visible : ∃ c ∈ t, isBlank c = false :=
      begins.imp fun c h => ⟨List.mem_of_mem_head? h.1, h.2⟩
    rw [trim_of_begins whole, trim_of_begins begins]
    exact trimRightWhile_append visible s

end Text

namespace Query

variable {p q : List Char} {ps qs found : List Step} {v w : Value}

/-- A step in front of steps that can be read on is in front of what they are read on to. -/
theorem cons_append (step? : Except String Step) {r r' : Except String (List Step)}
    (read : (do return (← step?) :: (← r)) = .ok ps)
    (later : ∀ {more}, r = .ok more → r' = (steps q).map (more ++ ·)) :
    (do return (← step?) :: (← r')) = (steps q).map (ps ++ ·) := by
  cases step? with
  | error e => cases read
  | ok step =>
    cases r with
    | error e => cases read
    | ok more =>
      obtain rfl : step :: more = ps := Except.ok.inj read
      rw [later rfl]
      cases steps q <;> rfl

/-- What is in brackets goes up to the first bracket that closes. -/
theorem steps_bracketed {inner : List Char} (closing : ']' ∉ inner) (after : List Char) :
    steps ('[' :: (inner ++ ']' :: after)) =
      match bracketed? (Text.trim inner) with
      | none => .error "unsupported bracket expression"
      | some step => do return step :: (← steps after) := by
  have inside := Text.forall_bne closing
  have taken : (inner ++ ']' :: after).takeWhile (· != ']') = inner := by
    rw [List.takeWhile_append_of_pos inside, List.takeWhile_cons_of_neg (by decide),
      List.append_nil]
  have left : (inner ++ ']' :: after).dropWhile (· != ']') = ']' :: after :=
    Text.dropWhile_append inside ⟨']', rfl, rfl⟩
  rw [steps]
  split
  · rename_i none
    rw [left] at none
    cases none
  · rename_i some
    rw [left] at some
    obtain ⟨-, rfl⟩ := List.cons.inj some
    cases word : bracketed? (Text.trim inner) <;> simp only [taken, word]

/-- A text that begins with a point or a bracket is read on its own, whatever could be read before
it. -/
theorem steps_append (read : steps p = .ok ps) (stop : ∀ c ∈ q.head?, isNameChar c = false) :
    steps (p ++ q) = (steps q).map (ps ++ ·) := by
  fun_induction steps p generalizing ps with
  | case1 =>
    obtain rfl := Except.ok.inj read
    rw [List.nil_append]
    cases steps q <;> rfl
  | case2 rest ih =>
    rw [List.cons_append, List.cons_append, steps, Text.takeWhile_append_of_stop stop,
      Text.dropWhile_append_of_stop stop]
    exact cons_append _ read ih
  | case3 rest single ih =>
    have name : rest ≠ [] := by
      rintro rfl
      cases read
    have still : ∀ more, rest ++ q = '.' :: more → False := by
      obtain ⟨c, rest, rfl⟩ := List.exists_cons_of_ne_nil name
      intro more same
      obtain ⟨rfl, -⟩ := List.cons.inj same
      exact single rest rfl
    rw [List.cons_append, steps, Text.takeWhile_append_of_stop stop,
      Text.dropWhile_append_of_stop stop]
    · exact cons_append _ read ih
    · exact still
  | case4 rest closing => cases read
  | case5 rest c after closing inner => cases read
  | case6 rest c after closing step inner ih =>
    have apart : ']' ∉ rest.takeWhile (· != ']') := fun mem => by
      simpa using List.mem_takeWhile_imp mem
    obtain rfl : c = ']' := by
      have stopped := List.head?_dropWhile_not (· != ']') rest
      simpa [closing] using stopped
    have whole : rest = rest.takeWhile (· != ']') ++ ']' :: after := by
      rw [← closing, List.takeWhile_append_dropWhile]
    rw [whole, List.cons_append, List.append_assoc, List.cons_append, steps_bracketed apart, inner]
    exact cons_append (.ok step) read ih
  | case7 c rest descent point bracket name =>
    rename_i ih
    rw [List.cons_append, steps, Text.takeWhile_append_of_stop stop,
      Text.dropWhile_append_of_stop stop]
    · exact cons_append (.ok _) read ih
    · exact fun more point' _ => point point'
    · exact point
    · exact bracket

/-- The later steps start from each match of the earlier ones. -/
theorem run_append (ps qs : List Step) (v : Value) :
    run (ps ++ qs) v = (run ps v).flatMap (run qs) := by
  have each (found : List Value) :
      qs.foldl (fun found step => found.flatMap step.apply) found = found.flatMap (run qs) := by
    induction qs generalizing found with
    | nil => exact (List.flatMap_singleton' found).symm
    | cons step qs ih =>
      have first (w : Value) : run (step :: qs) w = (step.apply w).flatMap (run qs) := by
        rw [run, List.foldl_cons, List.flatMap_singleton, ih]
      rw [List.foldl_cons, ih, List.flatMap_assoc]
      exact List.flatMap_congr fun w _ => (first w).symm
  rw [run, List.foldl_append, each]
  rfl

def Step.IsSingle (step : Step) : Prop := (∃ name, step = .child name) ∨ ∃ i, step = .index i

theorem Step.IsSingle.isDefinite {step : Step} (single : step.IsSingle) :
    step.isDefinite = true := by
  rcases single with ⟨name, rfl⟩ | ⟨i, rfl⟩ <;> rfl

theorem Step.IsSingle.length_apply {step : Step} (single : step.IsSingle) (v : Value) :
    (step.apply v).length ≤ 1 := by
  rcases single with ⟨name, rfl⟩ | ⟨i, rfl⟩
  · exact Option.length_toList_le
  · exact Option.length_toList_le

/-- Members and indexes alone have one match at most. -/
theorem length_run (single : ∀ step ∈ ps, step.IsSingle) (v : Value) :
    (run ps v).length ≤ 1 := by
  induction ps generalizing v with
  | nil => exact Nat.le_refl 1
  | cons step ps ih =>
    obtain ⟨first, rest⟩ := List.forall_mem_cons.mp single
    have split : run (step :: ps) v = (step.apply v).flatMap (run ps) := by
      simpa [run] using run_append [step] ps v
    rw [split]
    have one := first.length_apply v
    cases found : step.apply v with
    | nil => exact Nat.zero_le 1
    | cons w more =>
      obtain rfl : more = [] := by simpa [found] using one
      simpa using ih rest w

theorem parse_eq_ok_iff {path : String} :
    parse path = .ok ps ↔ steps (Plan.dropLeading '$' (Text.trim path.toList)) = .ok ps := by
  unfold parse
  cases Text.trim path.toList with
  | nil => cases read : steps [] <;> simp [Plan.dropLeading, read]
  | cons c rest =>
    by_cases dollar : c = '$'
    · subst c
      cases read : steps rest <;> simp [Plan.dropLeading, read]
    · cases read : steps (c :: rest) <;> simp [Plan.dropLeading, dollar, read]

/-- The steps of two queries, one written behind the other. -/
theorem parse_append {p q : String} (hp : parse p = .ok ps) (hq : parse q = .ok qs)
    (bare : Text.trim p.toList = p.toList) (begins : ∃ c ∈ q.toList.head?, c ∈ ['.', '[']) :
    parse (p ++ q) = .ok (ps ++ qs) := by
  have marks : ∀ c ∈ ['.', '['], Text.isBlank c = false ∧ isNameChar c = false ∧ c ≠ '$' :=
    List.all_iff_forall_prop.mp (by decide)
  obtain ⟨c, head, mark⟩ := begins
  obtain ⟨visible, stop, another⟩ := marks c mark
  have trimmed : (Text.trim q.toList).head? = some c :=
    (Text.head?_trim ⟨c, head, visible⟩).trans head
  have undollared (s : List Char) : Plan.dropLeading '$' (s ++ Text.trim q.toList) =
      Plan.dropLeading '$' s ++ Text.trim q.toList := by
    obtain ⟨rest, same⟩ := List.head?_eq_some_iff.mp trimmed
    cases s with
    | nil => simp [same, Plan.dropLeading, another]
    | cons d s =>
      simp only [List.cons_append, Plan.dropLeading]
      split <;> rfl
  have first := parse_eq_ok_iff.mp hp
  have second := parse_eq_ok_iff.mp hq
  have bare' := undollared []
  rw [bare] at first
  rw [← List.nil_append (Text.trim q.toList), bare'] at second
  apply parse_eq_ok_iff.mpr
  rw [String.toList_append, Text.trim_append_of_begins bare ⟨c, head, visible⟩, undollared,
    steps_append first (by simpa [trimmed] using stop)]
  change steps (Text.trim q.toList) = _ at second
  rw [second]
  rfl

theorem mapM_query {q : String} (hq : parse q = .ok qs) (found : List Value) :
    found.mapM (query · q) = .ok (found.map (run qs)) := by
  have each : (query · q) = fun v => pure (run qs v) := by
    funext v
    simp [query, hq, Except.map, pure, Except.pure]
  rw [each, List.mapM_pure]
  rfl

/-- A query behind a query starts from each match of the one before it, in order. Members and
indexes lead to one match at most, which is then the value that the query selects. -/
theorem queries_compose (doc : Value) (p q : String) (hp : ∃ ps, parse p = .ok ps)
    (bare : Text.trim p.toList = p.toList) (hq : ∃ qs, parse q = .ok qs)
    (begins : ∃ c ∈ q.toList.head?, c ∈ ['.', '[']) :
    (∃ found each, query doc p = .ok found ∧ found.mapM (query · q) = .ok each ∧
        query doc (p ++ q) = .ok each.flatten) ∧
      ∀ path steps, parse path = .ok steps → (∀ step ∈ steps, step.IsSingle) →
        query doc path = .ok [] ∧ select doc path = .ok .null ∨
          ∃ w, query doc path = .ok [w] ∧ select doc path = .ok w := by
  constructor
  · obtain ⟨ps, hp⟩ := hp
    obtain ⟨qs, hq⟩ := hq
    refine ⟨run ps doc, (run ps doc).map (run qs), ?_, mapM_query hq _, ?_⟩
    · simp [query, hp, Except.map]
    · rw [query, parse_append hp hq bare begins, ← List.flatMap_def, ← run_append]
      rfl
  · intro path steps read single
    have definite : steps.all Step.isDefinite = true :=
      List.all_eq_true.mpr fun step mem => (single step mem).isDefinite
    have one := length_run single doc
    cases found : run steps doc with
    | nil => exact .inl (by simp [query, select, read, found, definite, Except.map])
    | cons w more =>
      obtain rfl : more = [] := by simpa [found] using one
      exact .inr ⟨w, by simp [query, select, read, found, definite, Except.map]⟩

/-- Through all elements of a list, to a member that one of them does not have. -/
theorem queries_compose_items :
    let doc := Value.object [("a", .list [.object [("b", .bool true)], .text "c"])]
    query doc "$.a[*]" = .ok [.object [("b", .bool true)], .text "c"] ∧
      query doc ("$.a[*]" ++ ".b ") = .ok [.bool true] ∧
      select doc "$.a[1]" = .ok (.text "c") := by
  intro doc
  have first : parse "$.a[*]" = .ok [.child "a", .all] := by with_unfolding_all rfl
  have second : parse ".b " = .ok [.child "b"] := by with_unfolding_all rfl
  have single : parse "$.a[1]" = .ok [.child "a", .index 1] := by with_unfolding_all rfl
  obtain ⟨⟨found, each, one, other, both⟩, definite⟩ := queries_compose doc "$.a[*]" ".b "
    ⟨_, first⟩ (by decide) ⟨_, second⟩ ⟨'.', rfl, by decide⟩
  have items : query doc "$.a[*]" = .ok [.object [("b", .bool true)], .text "c"] := by
    with_unfolding_all rfl
  have members : [Value.object [("b", .bool true)], .text "c"].mapM (query · ".b ") =
      .ok [[.bool true], []] := by
    with_unfolding_all rfl
  obtain rfl := Except.ok.inj (items.symm.trans one)
  obtain rfl := Except.ok.inj (members.symm.trans other)
  have item : query doc "$.a[1]" = .ok [.text "c"] := by with_unfolding_all rfl
  refine ⟨one, both, ?_⟩
  rcases definite "$.a[1]" _ single (by simp [Step.IsSingle]) with ⟨none, -⟩ | ⟨w, some, chosen⟩
  · rw [item] at none
    cases none
  · rw [item] at some
    cases some
    exact chosen

end Query

end GoalScript
