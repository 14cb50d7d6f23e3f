import GoalScript.Proofs.Layout
import GoalScript.Proofs.Operands

namespace GoalScript

namespace Text

theorem trim_quote (s : List Char) : trim ('\'' :: s) = '\'' :: trimRight s := by
  have quote : isBlank '\'' = false := by decide
  have visible : ∀ c ∈ ['\''].head?, isBlank c = false := fun c head => Option.some.inj head ▸ quote
  rw [trim_of_begins ⟨'\'', rfl, by decide⟩, trimRight, trimRightWhile, List.reverse_cons,
    dropWhile_append_of_stop visible, List.reverse_append]
  rfl

end Text

namespace Query

variable {inside after : List Char} {p : String} {xs : List Value}

theorem index?_quote (s : List Char) : index? ('\'' :: s) = none := by
  simp [index?, Number.readInt, Number.readNat]

/-- What begins with a quote has to end with one. -/
theorem bracketed?_quote (s : List Char) : bracketed? ('\'' :: s) =
    if s.getLast? = some '\'' then some (.child (String.ofList s.dropLast)) else none := by
  simp [bracketed?, index?_quote]

def quotedSteps (inside after : List Char) : Except String (List Step) :=
  let name := Text.trimRight inside
  if name.getLast? = some '\'' then
    (steps after).map (.child (String.ofList name.dropLast) :: ·)
  else .error "unsupported bracket expression"

/-- A name in quotes is read up to the first bracket that closes. -/
theorem steps_quote (closing : ']' ∉ inside) (after : List Char) :
    steps ('[' :: '\'' :: (inside ++ ']' :: after)) = quotedSteps inside after := by
  have closing' : ']' ∉ '\'' :: inside := by simp [closing]
  have read := steps_bracketed closing' after
  rw [List.cons_append] at read
  rw [read, Text.trim_quote, bracketed?_quote, quotedSteps]
  by_cases ends : (Text.trimRight inside).getLast? = some '\''
  · rw [if_pos ends, if_pos ends]
    cases steps after <;> rfl
  · rw [if_neg ends, if_neg ends]

/-- Without such a bracket it is read as a whole. -/
theorem quotedSteps_whole (p : List Char) :
    quotedSteps (p ++ ['\'']) [] = .ok [.child (String.ofList p)] := by
  have solid : Text.trimRight (p ++ ['\'']) = p ++ ['\''] := by
    rw [Text.trimRight, Text.trimRightWhile, List.reverse_concat,
      List.dropWhile_cons_of_neg (by decide), ← List.reverse_concat, List.reverse_reverse]
  simp [quotedSteps, solid, steps, Except.map]

def collecting (p : String) : String := "$[*]['" ++ p ++ "']"

theorem parse_collecting (split : p.toList ++ ['\'', ']'] = inside ++ ']' :: after)
    (closing : ']' ∉ inside) : parse (collecting p) =
      match quotedSteps inside after with
      | .ok found => .ok (.all :: found)
      | .error reason => .error (.invalidQuery (collecting p) reason) := by
  have text : (collecting p).toList =
      '$' :: '[' :: '*' :: ']' :: '[' :: '\'' :: (inside ++ ']' :: after) := by
    rw [← split]
    simp [collecting, String.toList_append]
  have solid : Text.Solid (collecting p).toList := by
    have ends : (collecting p).toList.getLast? = some ']' := by
      rw [collecting, String.toList_append, List.getLast?_append]
      rfl
    exact ⟨⟨'$', by rw [text]; rfl, by decide⟩, ⟨']', ends, by decide⟩⟩
  have star : steps ('[' :: '*' :: ']' :: '[' :: '\'' :: (inside ++ ']' :: after)) =
      (quotedSteps inside after).map (.all :: ·) := by
    rw [← steps_quote closing]
    have all := @steps_bracketed ['*'] (by decide) ('[' :: '\'' :: (inside ++ ']' :: after))
    rw [List.singleton_append] at all
    rw [all]
    cases steps ('[' :: '\'' :: (inside ++ ']' :: after)) <;> rfl
  rw [parse, Text.trim_of_solid solid, text]
  simp only [star]
  cases quotedSteps inside after <;> rfl

theorem run_all (found : List Step) (xs : List Value) :
    run (.all :: found) (.list xs) = xs.flatMap (run found) := by
  have split := run_append [.all] found (.list xs)
  rw [List.singleton_append] at split
  rw [split]
  simp [run, Step.apply, Value.children]

theorem run_child (name : String) : run [.child name] = fun v => (v.member? name).toList := by
  funext v
  simp [run, Step.apply]

/-- The elements are asked for what is read of the name. -/
theorem query_collecting (split : p.toList ++ ['\'', ']'] = inside ++ ']' :: after)
    (closing : ']' ∉ inside) (xs : List Value) : query (.list xs) (collecting p) =
      match quotedSteps inside after with
      | .ok found => .ok (xs.flatMap (run found))
      | .error reason => .error (.invalidQuery (collecting p) reason) := by
  rw [query, parse_collecting split closing]
  cases quotedSteps inside after with
  | ok found => exact congrArg Except.ok (run_all found xs)
  | error reason => rfl

end Query

namespace Plan

variable {x p : String} {s : List Char} {c : Char}

/-- The plan takes the property of the variable that is stored under the key. -/
structure Takes (plan : Plan) (expr key p : String) : Prop where
  parsed : parse expr = .ok plan
  key_eq : plan.key = key
  step : plan.segments = [.property p]
  plain : plan.arithmetic = none

/-- What can be written as a property, with placeholders where it needs them: nothing is called or
calculated in it, and it is no position. -/
structure IsMemberName (s : List Char) : Prop where
  solid : Text.Solid s
  unrooted : s.head? ≠ some '$'
  unmarked : s.getLast? ≠ some '%'
  made : ∀ c ∈ s, c ∉ ['(', '+', '-', '*', '/']
  worded : ∃ c ∈ s, c.isDigit = false
  literal : Literal s

/-- A placeholder begins and ends with its marks, and any other character stands for itself. -/
theorem escapeChar_ends (c : Char) :
    (∃ d ∈ (escapeChar separators c).head?, d = '&' ∨ d = c) ∧
      ∃ d ∈ (escapeChar separators c).getLast?, d = ';' ∨ d = c := by
  by_cases mark : c ∈ separators
  · rw [escapeChar_of_mem mark]
    simp only [separators, List.mem_cons, List.not_mem_nil, or_false] at mark
    obtain rfl | rfl | rfl := mark <;> exact ⟨⟨'&', rfl, .inl rfl⟩, ⟨';', rfl, .inl rfl⟩⟩
  · rw [escapeChar_of_not_mem mark]
    exact ⟨⟨c, rfl, .inr rfl⟩, ⟨c, rfl, .inr rfl⟩⟩

namespace IsMemberName

variable (name : IsMemberName s)
include name

theorem begins : ∃ c ∈ (escape separators s).head?, Text.isBlank c = false ∧ c ≠ '$' := by
  obtain ⟨c, head, visible⟩ := name.solid.head
  have unrooted := name.unrooted
  obtain ⟨rest, rfl⟩ := List.head?_eq_some_iff.mp head
  rw [escape_cons]
  refine Text.head_append ?_ _
  obtain ⟨d, first, rfl | rfl⟩ := (escapeChar_ends c).1
  · exact ⟨'&', first, by decide⟩
  · exact ⟨d, first, visible, by simpa using unrooted⟩

theorem ends : ∃ c ∈ (escape separators s).getLast?,
    Text.isBlank c = false ∧ c ∉ ['%', '+', '-', '*', '/'] := by
  obtain ⟨c, last, visible⟩ := name.solid.last
  have unmarked := name.unmarked
  have made := name.made c (List.mem_of_getLast? last)
  obtain ⟨rest, rfl⟩ := List.getLast?_eq_some_iff.mp last
  rw [escape, List.flatMap_append, List.flatMap_singleton]
  refine Text.last_append _ ?_
  obtain ⟨d, last, rfl | rfl⟩ := (escapeChar_ends c).2
  · exact ⟨';', last, by decide⟩
  · refine ⟨d, last, visible, ?_⟩
    simp only [List.getLast?_concat, ne_eq, Option.some.injEq] at unmarked
    simp only [List.mem_cons, not_or] at made ⊢
    exact ⟨unmarked, made.2⟩

theorem not_mem (h : c ∈ ['.', '[', '(', '+', '-', '*', '/']) : c ∉ escape separators s := by
  have sub : ['.', '[', '(', '+', '-', '*', '/'] ⊆ signs := by decide
  intro mem
  obtain word | ⟨mem, unmarked⟩ := mem_escape (List.Subset.refl _) mem
  · exact word.not_sign (sub h)
  · have made := name.made c mem
    simp only [separators, List.mem_cons, List.not_mem_nil, or_false, not_or] at h unmarked made
    tauto

theorem undigit : (escape separators s).all Char.isDigit = false := by
  obtain ⟨c, mem, other⟩ := name.worded
  obtain ⟨d, head, same⟩ := (escapeChar_ends c).1
  refine List.all_eq_false.mpr ⟨d, List.mem_flatMap.mpr ⟨c, mem, List.mem_of_mem_head? head⟩, ?_⟩
  obtain rfl | rfl := same
  · decide
  · simp [other]

theorem token (raw : List Char) :
    Plan.token raw (escape separators s) = .ok [.property (String.ofList s)] := by
  have uncalled : (escape separators s).dropWhile (· != '(') = [] :=
    List.dropWhile_eq_nil_iff.mpr (Text.forall_bne (name.not_mem (by decide)))
  have some : (escape separators s).isEmpty = false := by
    simpa using Text.ne_nil_of_head name.begins
  have solid : Text.Solid (escape separators s) :=
    ⟨name.begins.imp fun c h => ⟨h.1, h.2.1⟩, name.ends.imp fun c h => ⟨h.1, h.2.1⟩⟩
  simp [Plan.token, uncalled, name.undigit, splitName_of_not_mem (name.not_mem (by decide)), some,
    Text.trim_of_solid solid, translateEscapes_escape (List.Subset.refl _) name.literal,
    brackets_nil, Except.map]

theorem tokens (raw : List Char) :
    Plan.tokens raw [escape separators s] = .ok [.property (String.ofList s)] := by
  have step : IsStep (escape separators s) :=
    isStep_of_begins (name.begins.imp fun _ h => ⟨h.1, h.2.2⟩)
      (isQueryToken_of_isChain (isChain_of_not_mem (name.not_mem (by decide))))
  rw [tokens_cons step, name.token]
  rfl

theorem path (identifier : IsIdentifier x.toList) (raw : List Char) :
    Plan.path raw (x.toList ++ '.' :: escape separators s) =
      .ok (x, [.property (String.ofList s)]) := by
  have outer : Closed (· = '.') {} x.toList :=
    closed_of_isIdentifier (by simp [dividers]) identifier
  have inner : Hides (· = '.') {} (escape separators s) :=
    hides_of_forall_not fun c mem dot => name.not_mem (by decide) (dot ▸ mem)
  have bracket : '[' ∉ x.toList := identifier.not_mem_of_sign (by decide)
  have some : x.toList.isEmpty = false := by
    simpa using Text.ne_nil_of_head identifier.begins
  have unasked : isQueryToken [] = false := isQueryToken_of_isChain .nil
  have plain : '&' ∉ x.toList := identifier.not_mem_of_sign (by decide)
  rw [Plan.path, splitTop_append outer, splitTop_of_hides inner]
  simp [splitName_of_not_mem bracket, some, unasked, brackets_nil, name.tokens,
    translateEscapes_of_not_mem plain, bind, Except.bind, pure, Except.pure]

end IsMemberName

/-- Behind the name of a variable it is read as that property. -/
theorem takes_of_isMemberName (identifier : IsIdentifier x.toList)
    (name : IsMemberName p.toList) : ∃ plan : Plan,
      plan.Takes (x ++ "." ++ String.ofList (escape separators p.toList)) (Text.lowercase x) p := by
  have operators : ∀ c ∈ x.toList ++ '.' :: escape separators p.toList, ¬ IsOperator c := by
    intro c mem operator
    rcases List.mem_append.mp mem with mem | mem
    · have sub : ['+', '-', '*', '/'] ⊆ '&' :: signs := by decide
      exact identifier.not_mem_of_sign (sub operator.mem) mem
    · rcases List.mem_cons.mp mem with rfl | mem
      · exact absurd operator (by simp [IsOperator, Operator.ofChar?])
      · have sub : ['+', '-', '*', '/'] ⊆ ['.', '[', '(', '+', '-', '*', '/'] := by decide
        exact name.not_mem (sub operator.mem) mem
  have framed : Framed (x.toList ++ '.' :: escape separators p.toList) :=
    ⟨(framed_of_isIdentifier identifier).begins_append _,
      Text.last_append _ (Text.last_append ['.'] name.ends)⟩
  have parsed := parse_of_bare framed (splitArithmetic_of_hides (hides_of_forall_not operators))
  dsimp only [Option.map_none, Option.getD_none] at parsed
  have text : String.ofList (x.toList ++ '.' :: escape separators p.toList) =
      x ++ "." ++ String.ofList (escape separators p.toList) := by
    apply String.toList_inj.mp
    simp [String.toList_append]
  rw [name.path identifier, text, String.ofList_toList] at parsed
  exact ⟨_, parsed, rfl, rfl, rfl⟩

end Plan

namespace Store

variable {s : Store} {x p expr : String} {root plan : Plan} {xs : List Value} {v : Value}

def refused (s : Store) (plan : Plan) (e : MemoryError) : Resolved Value :=
  if s.memory.buildMode && e.isUnknownName then .ok (Variable.placeholder plan.expr).value
  else .error e

/-- A property is taken from the value of the variable. -/
theorem getValue_of_takes (named : Plan.IsRoot x root) (held : s.getValue x = .ok v)
    (some : v ≠ .null) (timeless : ∀ t, v ≠ .date t) (takes : plan.Takes expr root.key p) :
    s.getValue expr = match v.property p with
      | .ok w => .ok w
      | .error e => s.refused plan e := by
  obtain ⟨free, y, found, set, rfl⟩ :=
    set_of_getValue named.parsed named.whole named.plain held some timeless
  have free' : ¬ plan.IsReserved := by
    unfold Plan.IsReserved
    rwa [takes.key_eq]
  rw [getValue, get_eq takes.parsed free', takes.key_eq, found]
  simp only [Option.filter, set, if_true, navigateBy, takes.step, takes.plain, segmentsBy,
    segmentBy, refused]
  cases y.value.property p with
  | ok w => rfl
  | error e =>
    change Except.map Variable.value (if (s.memory.buildMode && e.isUnknownName) = true then
      .ok (.placeholder plan.expr) else .error e) = if _ then _ else _
    split <;> rfl

/-- The property of a list is what the query for it finds, as far as that can be read. -/
theorem getValue_of_list (named : Plan.IsRoot x root) (held : s.getValue x = .ok (.list xs))
    (undeclared : Capability.isProperty (.list xs) p = false)
    (takes : plan.Takes expr root.key p) {inside after : List Char}
    (split : p.toList ++ ['\'', ']'] = inside ++ ']' :: after) (closing : ']' ∉ inside) :
    s.getValue expr = match Query.quotedSteps inside after with
      | .ok found => .ok (.list (xs.flatMap (Query.run found)))
      | .error reason => s.refused plan (.invalidQuery (Query.collecting p) reason) := by
  have collected : (Value.list xs).property p =
      (Query.query (.list xs) (Query.collecting p)).map .list := by
    rw [Value.property, undeclared, if_neg Bool.false_ne_true]
    rfl
  rw [getValue_of_takes named held Value.noConfusion (fun _ => Value.noConfusion) takes, collected,
    Query.query_collecting split closing]
  cases Query.quotedSteps inside after <;> rfl

/-- A property that lists do not have is the list of what the elements have under that name, in
their order, for every name without a closing bracket. With one, the name ends there. -/
theorem lists_are_projected (named : Plan.IsRoot x root)
    (held : s.getValue x = .ok (.list xs))
    (undeclared : Capability.isProperty (.list xs) p = false) :
    (Plan.IsIdentifier x.toList → Plan.IsMemberName p.toList → ∃ plan : Plan,
      plan.Takes (x ++ "." ++ String.ofList (Plan.escape Plan.separators p.toList)) root.key p) ∧
    ∀ (expr : String) (plan : Plan), plan.Takes expr root.key p →
      (']' ∉ p.toList → s.getValue expr = .ok (.list (xs.filterMap (·.member? p)))) ∧
      ∀ inside after, p.toList = inside ++ ']' :: after → ']' ∉ inside →
        s.getValue expr = match Query.quotedSteps inside (after ++ ['\'', ']']) with
          | .ok found => .ok (.list (xs.flatMap (Query.run found)))
          | .error reason => s.refused plan (.invalidQuery (Query.collecting p) reason) := by
  refine ⟨fun identifier name => ?_, fun expr plan takes => ⟨fun closing => ?_, ?_⟩⟩
  · have key : root.key = Text.lowercase x := by
      obtain rfl := Except.ok.inj (named.parsed.symm.trans (Plan.parse_of_isIdentifier identifier))
      rfl
    rw [key]
    exact Plan.takes_of_isMemberName identifier name
  · have quoted : ']' ∉ p.toList ++ ['\''] := by simp [closing]
    have whole : p.toList ++ ['\'', ']'] = p.toList ++ ['\''] ++ ']' :: [] := by simp
    have read := getValue_of_list named held undeclared takes whole quoted
    rw [Query.quotedSteps_whole, String.ofList_toList] at read
    simpa [Query.run_child, List.filterMap_eq_flatMap_toList] using read
  · intro inside after split closing
    exact getValue_of_list named held undeclared takes (by simp [split]) closing

def listing (name : String) (xs : List Value) : Store :=
  { memory := { vars := [(name, { name, value := .list xs })] } }

/-- A name with a quote and a point, which some elements have in another case or not at all. -/
theorem lists_are_projected_quote :
    let xs : List Value := [.object [("it's.x", .number 1.0)], .number 5.0,
      .object [("IT'S.X", .number 2.0)], .object [("its", .null)]]
    Plan.IsRoot "v" { expr := "v", root := "v" } ∧
      (listing "v" xs).getValue "v" = .ok (.list xs) ∧
      Capability.isProperty (.list xs) "it's.x" = false ∧ Plan.IsIdentifier "v".toList ∧
      Plan.IsMemberName "it's.x".toList ∧
      (listing "v" xs).getValue "v.it's&dot;x" = .ok (.list [.number 1.0, .number 2.0]) := by
  intro xs
  have named : Plan.IsRoot "v" { expr := "v", root := "v" } :=
    ⟨by with_unfolding_all rfl, rfl, rfl, ⟨⟨'v', rfl, by decide⟩, ⟨'v', rfl, by decide⟩⟩, rfl⟩
  have held : (listing "v" xs).getValue "v" = .ok (.list xs) := by with_unfolding_all rfl
  have undeclared : Capability.isProperty (.list xs) "it's.x" = false := by
    with_unfolding_all rfl
  have identifier : Plan.IsIdentifier "v".toList := by decide
  have name : Plan.IsMemberName "it's.x".toList :=
    ⟨⟨⟨'i', rfl, by decide⟩, ⟨'x', rfl, by decide⟩⟩, by decide, by decide,
      List.all_iff_forall_prop.mp (by decide), ⟨'i', by decide, by decide⟩, by decide⟩
  obtain ⟨written, read⟩ := lists_are_projected named held undeclared
  obtain ⟨plan, takes⟩ := written identifier name
  have text : "v" ++ "." ++ String.ofList (Plan.escape Plan.separators "it's.x".toList) =
      "v.it's&dot;x" := by decide
  rw [text] at takes
  have members : xs.filterMap (·.member? "it's.x") = [.number 1.0, .number 2.0] := by
    with_unfolding_all rfl
  exact ⟨named, held, undeclared, identifier, name,
    members ▸ (read "v.it's&dot;x" plan takes).1 (by decide)⟩

/-- A bracket that closes ends the name, so that the query cannot be read, or finds what other
members have. -/
theorem brackets_tear_projected_names :
    let torn : List Value := [.object [("a]b", .number 1.0)]]
    let other : List Value := [.object [("a", .object [("b", .number 1.0)]),
      ("a']['b", .number 2.0)]]
    Capability.isProperty (.list torn) "a]b" = false ∧
      torn.filterMap (·.member? "a]b") = [.number 1.0] ∧
      (listing "v" torn).getValue "v.a&rb;b" =
        .error (.invalidQuery "$[*]['a]b']" "unsupported bracket expression") ∧
      Capability.isProperty (.list other) "a']['b" = false ∧
      other.filterMap (·.member? "a']['b") = [.number 2.0] ∧
      (listing "v" other).getValue "v.a'&rb;&lb;'b" = .ok (.list [.number 1.0]) := by
  exact ⟨by with_unfolding_all rfl, by with_unfolding_all rfl, by with_unfolding_all rfl,
    by with_unfolding_all rfl, by with_unfolding_all rfl, by with_unfolding_all rfl⟩

end Store

end GoalScript
