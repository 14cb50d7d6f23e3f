import GoalScript.Proofs.Chaining
import GoalScript.Proofs.Visibility

namespace GoalScript

namespace Plan

variable {name : List Char}

/-- What a text is split into makes it up again. -/
theorem joinTop_splitFrom (separator : Char) (n : Nesting) (s : List Char) :
    joinTop separator (splitFrom separator n s) = s := by
  induction s generalizing n with
  | nil => rfl
  | cons c s ih =>
    by_cases here : n.isOutside = true ∧ c = separator
    · obtain ⟨outside, rfl⟩ := here
      have whole := ih n
      obtain ⟨first, rest, more⟩ := List.exists_cons_of_ne_nil (splitFrom_ne_nil c n s)
      rw [more, joinTop] at whole
      rw [splitFrom_separator outside, more, joinTop, List.intercalate_cons_cons, whole]
      rfl
    · have passed : n.isOutside = true → c ≠ separator := fun outside same => here ⟨outside, same⟩
      have whole := ih (n.next c)
      obtain ⟨first, rest, more⟩ :=
        List.exists_cons_of_ne_nil (splitFrom_ne_nil separator (n.next c) s)
      rw [more] at whole
      rw [splitFrom_cons passed, more, List.modifyHead_cons, ← whole]
      cases rest <;> simp [joinTop, List.intercalate_cons_cons]

/-- Behind a name, a point and a dollar sign everything is a query. -/
theorem path_query (raw : List Char) (some : name ≠ []) (closed : Closed (· = '.') {} name)
    (unbracketed : '[' ∉ name) (s : List Char) :
    path raw (name ++ '.' :: '$' :: s) =
      .ok (String.ofList (translateEscapes name), [query ('$' :: s)]) := by
  have whole := joinTop_splitFrom '.' {} ('$' :: s)
  have next : splitTop '.' ('$' :: s) = (splitTop '.' s).modifyHead ('$' :: ·) :=
    splitFrom_cons fun _ => by decide
  obtain ⟨first, rest, split⟩ := List.exists_cons_of_ne_nil (splitFrom_ne_nil '.' {} s)
  have pieces : splitTop '.' (name ++ '.' :: '$' :: s) = name :: ('$' :: first) :: rest := by
    rw [splitTop_append closed, next, splitTop, split, List.modifyHead_cons]
  have joined : joinTop '.' (('$' :: first) :: rest) = '$' :: s := by
    rw [← whole]
    exact congrArg (joinTop '.') (by rw [← List.modifyHead_cons, ← split]; exact next.symm)
  have named : name.isEmpty = false := by simpa using some
  have asked : isQueryToken [] = false := isQueryToken_of_isChain .nil
  simp only [path, pieces, splitName_of_not_mem unbracketed, named, asked, brackets_nil, tokens,
    joined, List.isEmpty_cons, List.head?_cons, beq_self_eq_true, Bool.false_eq_true, if_false,
    if_true]
  rfl

end Plan

namespace Place

def bracketed (n : Nat) : List Char := '[' :: ((toString n).toList ++ [']'])

def dotted : Place → List Char
  | .key k => '.' :: k.toList
  | .position n => bracketed n

/-- How a step is written in a query, where positions count from 0. -/
def queried : Place → List Char
  | .key k => '.' :: k.toList
  | .position n => bracketed (n - 1)

/-- A key that is an identifier, or the position of an element that a list can have. -/
def IsPlain : Place → Prop
  | .key k => Plan.IsIdentifier k.toList
  | .position n => 0 < n ∧ n ≤ Number.half64

def step : Place → Plan.Step
  | .key k => .property k
  | .position n => .index (.position n)

def queryStep : Place → Query.Step
  | .key k => .child k
  | .position n => .index (n - 1 : Nat)

variable {place : Place} {path : List Place} {c : Char}

theorem isDefinite_queryStep (place : Place) : place.queryStep.isDefinite = true := by
  cases place <;> rfl

theorem place?_segment (place : Place) : place.step.segment.place? = some place := by
  cases place <;> rfl

theorem made_of_bracketed {n : Nat} (h : c ∈ bracketed n) :
    Plan.IsWordChar c ∨ c ∈ ['.', '[', ']', '$'] := by
  rcases List.mem_cons.mp h with rfl | h
  · exact .inr (by decide)
  · rcases List.mem_append.mp h with digit | close
    · exact .inl (Plan.isWordChar_of_mem_toString digit)
    · exact .inr (by simp [List.mem_singleton.mp close])

theorem made_of_key {k : String} (identifier : Plan.IsIdentifier k.toList)
    (h : c ∈ '.' :: k.toList) : Plan.IsWordChar c ∨ c ∈ ['.', '[', ']', '$'] := by
  rcases List.mem_cons.mp h with rfl | h
  · exact .inr (by decide)
  · exact .inl (identifier.isWordChar h)

namespace IsPlain

variable (plain : place.IsPlain)
include plain

theorem isWritable : place.step.IsWritable := by
  cases place with
  | key k => exact Plan.IsIdentifier.isName plain
  | position n =>
    have small : Number.half64 < Number.word64 := by decide
    exact ⟨plain.1, Nat.lt_of_le_of_lt plain.2 small⟩

theorem dotted_eq : place.dotted = place.step.print := by
  cases place with
  | key k => rw [dotted, step, Plan.Step.print, Plan.IsIdentifier.escape_eq plain]
  | position n => rfl

theorem made_of_dotted (h : c ∈ place.dotted) : Plan.IsWordChar c ∨ c ∈ ['.', '[', ']', '$'] := by
  cases place with
  | key k => exact made_of_key plain h
  | position n => exact made_of_bracketed h

theorem made_of_queried (h : c ∈ place.queried) :
    Plan.IsWordChar c ∨ c ∈ ['.', '[', ']', '$'] := by
  cases place with
  | key k => exact made_of_key plain h
  | position n => exact made_of_bracketed h

end IsPlain

section Plain

variable (plain : ∀ place ∈ path, place.IsPlain)
include plain

theorem isPath_dotted : path.flatMap dotted = [] ∨ Plan.IsPath (path.flatMap dotted) := by
  cases path with
  | nil => exact .inl rfl
  | cons place path =>
    refine .inr ⟨?_, fun c mem => ?_⟩
    · cases place with
      | key k => exact ⟨'.', rfl, by decide⟩
      | position n => exact ⟨'[', rfl, by decide⟩
    · obtain ⟨step, found, mem⟩ := List.mem_flatMap.mp mem
      exact (plain step found).made_of_dotted mem

theorem isPath_queried : Plan.IsPath ('.' :: '$' :: path.flatMap queried) := by
  refine ⟨⟨'.', rfl, by decide⟩, List.forall_mem_cons.mpr ⟨.inr (by decide), ?_⟩⟩
  refine List.forall_mem_cons.mpr ⟨.inr (by decide), fun c mem => ?_⟩
  obtain ⟨step, found, mem⟩ := List.mem_flatMap.mp mem
  exact (plain step found).made_of_queried mem

theorem flatMap_dotted : path.flatMap dotted = (path.map step).flatMap Plan.Step.print := by
  rw [List.flatMap_map]
  exact List.flatMap_congr fun place mem => (plain place mem).dotted_eq

theorem isWritable_steps : ∀ behind ∈ path.map step, behind.IsWritable := by
  intro behind mem
  obtain ⟨place, found, rfl⟩ := List.mem_map.mp mem
  exact (plain place found).isWritable

end Plain

end Place

namespace Query

variable {k s : List Char} {n : Nat}

/-- A name in a query ends where the next step begins. -/
theorem steps_key (identifier : Plan.IsIdentifier k)
    (stop : ∀ c ∈ s.head?, isNameChar c = false) :
    steps ('.' :: (k ++ s)) = (steps s).map (.child (String.ofList k) :: ·) := by
  have inside : ∀ c ∈ k, isNameChar c = true := by
    intro c mem
    have point : c ≠ '.' := by
      rintro rfl
      exact identifier.not_mem_of_sign (by decide) mem
    have bracket : c ≠ '[' := by
      rintro rfl
      exact identifier.not_mem_of_sign (by decide) mem
    simp [isNameChar, point, bracket]
  have name : (k ++ s).takeWhile isNameChar = k := by
    rw [Text.takeWhile_append_of_stop stop, List.takeWhile_eq_self_iff.mpr inside]
  have rest : (k ++ s).dropWhile isNameChar = s := by
    rw [Text.dropWhile_append_of_stop stop, List.dropWhile_eq_nil_iff.mpr inside, List.nil_append]
  have star : (k == ['*']) = false := by
    refine beq_eq_false_iff_ne.mpr ?_
    rintro rfl
    exact identifier.not_mem_of_sign (by decide) List.mem_cons_self
  have some : k.isEmpty = false := by simpa using Text.ne_nil_of_head identifier.begins
  obtain ⟨c, head, begins⟩ := identifier.begins
  rw [steps]
  · rw [name, rest, described]
    simp only [star, some, Bool.false_eq_true, if_false]
    rfl
  · -- Only a second point would make it a descent.
    intro behind descent
    obtain ⟨rest, rfl⟩ := List.head?_eq_some_iff.mp head
    obtain ⟨rfl, -⟩ := List.cons.inj descent
    exact absurd (inside '.' List.mem_cons_self) (by decide)

theorem index?_toString (small : n < Number.half64) :
    index? (toString n).toList = some (n : Int) := by
  have digits := fun c mem => Text.isDigit_of_mem_toString (n := n) (c := c) mem
  have whole : Number.readNat (toString n).toList = some n := by
    have all : (toString n).toList.all Char.isDigit = true := List.all_eq_true.mpr digits
    have some : (toString n).toList.isEmpty = false := by simp
    simp only [Number.readNat, all, some, Plan.natOf_toString, Bool.not_true, Bool.or_self,
      Bool.false_eq_true, if_false]
  have read : Number.readInt (toString n).toList = some (n : Int) := by
    unfold Number.readInt
    split
    · rename_i minus
      exact absurd (digits '-' (minus ▸ List.mem_cons_self)) (by decide)
    · rename_i plus
      exact absurd (digits '+' (plus ▸ List.mem_cons_self)) (by decide)
    · rw [whole]
      rfl
  have fits : Number.isSigned64 (n : Int) = true := by
    simp only [Number.isSigned64, Bool.and_eq_true, decide_eq_true_eq]
    omega
  rw [index?, read, Option.bind_some, if_pos fits]

theorem bracketed?_toString (small : n < Number.half64) :
    bracketed? (toString n).toList = some (.index n) := by
  have star : ((toString n).toList == ['*']) = false := by
    refine beq_eq_false_iff_ne.mpr fun same => ?_
    exact absurd (Text.isDigit_of_mem_toString (same ▸ List.mem_singleton_self _)) (by decide)
  unfold bracketed?
  rw [star, if_neg Bool.false_ne_true, index?_toString small]

/-- A position in brackets is read as an index. -/
theorem steps_index (small : n < Number.half64) (s : List Char) :
    steps (Place.bracketed n ++ s) = (steps s).map (.index n :: ·) := by
  have inner : ']' ∉ (toString n).toList := fun mem => by
    exact absurd (Text.isDigit_of_mem_toString mem) (by decide)
  have solid : Text.Solid (toString n).toList :=
    Text.solid_of_visible (Plan.toString_ne_nil n)
      fun c mem => (Plan.isWordChar_of_mem_toString mem).not_blank
  rw [Place.bracketed, List.cons_append, List.append_assoc, List.singleton_append,
    steps_bracketed inner, Text.trim_of_solid solid, bracketed?_toString small]
  rfl

end Query

namespace Value

/-- The steps lead to a value that is there: by keys that are identifiers, in objects in which no
two names are equal up to case, and by positions in lists that are no longer than a signed word can
count. -/
inductive Reaches : List Place → Value → Value → Prop where
  | here (v : Value) : Reaches [] v v
  | member {members : List (String × Value)} {k name : String} {rest : List Place} {u w : Value}
      (identifier : Plan.IsIdentifier k.toList) (there : (name, u) ∈ members)
      (same : Text.sameName name k = true)
      (apart : members.Pairwise fun m n => Text.sameName m.1 n.1 = false)
      (below : Reaches rest u w) : Reaches (.key k :: rest) (.object members) w
  | element {items : List Value} {n : Nat} {rest : List Place} {u w : Value}
      (fits : items.length ≤ Number.half64) (low : 0 < n) (there : items[n - 1]? = some u)
      (below : Reaches rest u w) : Reaches (.position n :: rest) (.list items) w

variable {members : List (String × Value)} {name k : String} {path : List Place} {u v w : Value}

/-- Where no two names are equal up to case, at most one is equal to a given one. -/
theorem eq_of_pairwise (apart : members.Pairwise fun m n => Text.sameName m.1 n.1 = false)
    {m n : String × Value} (hm : m ∈ members) (hn : n ∈ members)
    (same : Text.sameName m.1 k = true) (same' : Text.sameName n.1 k = true) : m = n := by
  have folded := (Text.sameName_iff.mp same).trans (Text.sameName_iff.mp same').symm
  have symm : Std.Symm fun m n : String × Value => Text.sameName m.1 n.1 = false :=
    ⟨fun m n differ => by
      rw [← differ, Bool.eq_iff_iff, Text.sameName_iff, Text.sameName_iff, eq_comm]⟩
  by_contra other
  have differs := apart.forall hm hn other
  rw [Text.sameName_iff.mpr folded] at differs
  cases differs

theorem denotes_of_pairwise (there : (name, u) ∈ members) (same : Text.sameName name k = true)
    (apart : members.Pairwise fun m n => Text.sameName m.1 n.1 = false) :
    Denotes members k name u := by
  refine ⟨?_, .inr fun m hm same' => congrArg Prod.fst (eq_of_pairwise apart hm there same' same)⟩
  cases found : findMember? members k with
  | none =>
    have differs := findMember?_eq_none_iff.mp found _ there
    rw [same] at differs
    cases differs
  | some m =>
    exact congrArg some (eq_of_pairwise apart (mem_of_findMember? found) there
      (sameName_of_findMember? found) same)

namespace Reaches

variable (reaches : Reaches path v w)
include reaches

theorem isPlain : ∀ place ∈ path, place.IsPlain := by
  induction reaches with
  | here v => exact List.forall_mem_nil _
  | member identifier there same apart below ih => exact List.forall_mem_cons.mpr ⟨identifier, ih⟩
  | @element items n rest u w fits low there below ih =>
    obtain ⟨high, -⟩ := List.getElem?_eq_some_iff.mp there
    exact List.forall_mem_cons.mpr ⟨⟨low, by omega⟩, ih⟩

theorem leads : Leads path v w := by
  induction reaches with
  | here v => exact .here v
  | member identifier there same apart below ih =>
    exact .member (denotes_of_pairwise there same apart) ih
  | element fits low there below ih => exact .element low there ih

/-- Each step of a query has one match. -/
theorem run : Query.run (path.map Place.queryStep) v = [w] := by
  have next {step : Query.Step} {steps : List Query.Step} {v u : Value} (one : step.apply v = [u]) :
      Query.run (step :: steps) v = Query.run steps u := by
    simp [Query.run, one]
  induction reaches with
  | here v => rfl
  | @member members k name rest u w identifier there same apart below ih =>
    have found := (denotes_of_pairwise there same apart).found
    have one : (Place.key k).queryStep.apply (.object members) = [u] := by
      simp [Place.queryStep, Query.Step.apply, member?, found]
    rw [List.map_cons, next one, ih]
  | @element items n rest u w fits low there below ih =>
    have forward : ¬ ((n - 1 : Nat) : Int) < 0 := by omega
    have one : (Place.position n).queryStep.apply (.list items) = [u] := by
      simp [Place.queryStep, Query.Step.apply, Query.element?, forward, there]
    rw [List.map_cons, next one, ih]

end Reaches

end Value

namespace Query

variable {path : List Place}

/-- The steps of a query are read as they are written. -/
theorem steps_queried (plain : ∀ place ∈ path, place.IsPlain) :
    steps (path.flatMap Place.queried) = .ok (path.map Place.queryStep) := by
  induction path with
  | nil =>
    rw [List.flatMap_nil, steps]
    rfl
  | cons place path ih =>
    obtain ⟨first, rest⟩ := List.forall_mem_cons.mp plain
    rw [List.flatMap_cons]
    cases place with
    | key k =>
      have stop : ∀ c ∈ (path.flatMap Place.queried).head?, isNameChar c = false := by
        cases path with
        | nil => simp
        | cons place path => cases place <;> exact fun c head => Option.some.inj head ▸ rfl
      rw [Place.queried, List.cons_append, steps_key first stop, ih rest, String.ofList_toList]
      rfl
    | position n =>
      obtain ⟨low, high⟩ := first
      rw [Place.queried, steps_index (by omega), ih rest]
      rfl

/-- The query that is written for a path is read as its steps. -/
theorem parse_queried (plain : ∀ place ∈ path, place.IsPlain) :
    parse (String.ofList ('$' :: path.flatMap Place.queried)) =
      .ok (path.map Place.queryStep) := by
  have visible := (Place.isPath_queried plain).visible
  have solid : Text.Solid ('$' :: path.flatMap Place.queried) :=
    Text.solid_of_visible (by simp) fun c mem => visible c (List.mem_cons_of_mem _ mem)
  simp only [parse, String.toList_ofList, Text.trim_of_solid solid, steps_queried plain]

end Query

/-- A query selects what its path reaches. -/
theorem Value.Reaches.query {path : List Place} {v w : Value} (reaches : Reaches path v w)
    (structured : v.isStructured = true) :
    v.query (String.ofList ('$' :: path.flatMap Place.queried)) = .ok w := by
  have definite : (path.map Place.queryStep).all Query.Step.isDefinite = true := by
    simp [Place.isDefinite_queryStep]
  have selected : Query.select v (String.ofList ('$' :: path.flatMap Place.queried)) = .ok w := by
    simp only [Query.select, Query.parse_queried reaches.isPlain, Except.map, reaches.run, definite,
      if_true, List.head?_cons, Option.getD_some]
  unfold Value.query
  split
  · cases structured
  · rw [if_pos structured, selected]

namespace Store

variable {s : Store} {x : String} {plan : Plan} {v w : Value} {segments : List Segment}

/-- What segments behind a name make of the value that the variable holds. -/
theorem getValue_behind {text : List Char} (root : Plan.IsRoot x plan)
    (held : s.getValue x = .ok v) (structured : v.isStructured = true)
    (parsed : Plan.parse (x ++ String.ofList text) =
      .ok { expr := x ++ String.ofList text, root := plan.root, segments, arithmetic := none })
    (leads : ∀ (meaning : String → Resolved Value) shown,
      segmentsBy meaning shown v segments = .ok w) :
    s.getValue (x ++ String.ofList text) = .ok w := by
  have some : v ≠ .null := by
    rintro rfl
    cases structured
  have timeless : ∀ t, v ≠ .date t := by
    rintro t rfl
    cases structured
  obtain ⟨free, y, found, set, rfl⟩ :=
    set_of_getValue root.parsed root.whole root.plain held some timeless
  exact getValue_of_segmentsBy parsed rfl free found set (leads _ _)

/-- What is in a variable can be reached by a path and by a query behind its name, and both give the
value that is there. -/
theorem queries_agree_with_paths (s : Store) (x : String) (plan : Plan) (path : List Place)
    (v w : Value) (root : Plan.IsRoot x plan) (held : s.getValue x = .ok v)
    (structured : v.isStructured = true) (reaches : Value.Reaches path v w) :
    s.getValue (x ++ String.ofList (path.flatMap Place.dotted)) = .ok w ∧
      s.getValue (x ++ String.ofList ('.' :: '$' :: path.flatMap Place.queried)) = .ok w := by
  have plain := reaches.isPlain
  have some : x.toList ≠ [] := Text.ne_nil_of_head root.framed.begins
  constructor
  · have parsed := root.parse_append (Place.isPath_dotted plain) fun raw => by
      rw [Place.flatMap_dotted plain]
      exact Plan.path_steps raw some root.hides root.unbracketed (Place.isWritable_steps plain)
    refine getValue_behind root held structured parsed fun resolve shown => ?_
    refine Value.segmentsBy_of_follow? ?_ reaches.leads.follow?
    simp [Function.comp_def, Place.place?_segment]
  · have parsed := root.parse_append (.inr (Place.isPath_queried plain)) fun raw =>
      Plan.path_query raw some root.hides root.unbracketed _
    refine getValue_behind root held structured parsed fun resolve shown => ?_
    simp only [segmentsBy, segmentBy, Plan.query, reaches.query structured]
    rfl

/-- Through an object, a list and an object, by names in another case. -/
theorem queries_agree_with_paths_nested :
    let orders := Value.list [.null, .object [("Title", .text "milk")]]
    let list : Variable := { name := "shopping-list", value := .object [("Orders", orders)] }
    let s : Store := { memory := { vars := [("shopping-list", list)] } }
    s.getValue "shopping-list.orders[2].title" = .ok (.text "milk") ∧
      s.getValue "shopping-list.$.orders[1].title" = .ok (.text "milk") := by
  intro orders list s
  let plan : Plan := { expr := "shopping-list", root := "shopping-list" }
  have root : Plan.IsRoot "shopping-list" plan :=
    ⟨by with_unfolding_all rfl, rfl, rfl, ⟨⟨'s', rfl, by decide⟩, ⟨'t', rfl, by decide⟩⟩, rfl⟩
  have reaches : Value.Reaches [.key "orders", .position 2, .key "title"] list.value
      (.text "milk") := by
    refine .member (by decide) List.mem_cons_self (by decide) (List.pairwise_singleton _ _)
      (.element (by decide) (by decide) rfl ?_)
    exact .member (by decide) List.mem_cons_self (by decide) (List.pairwise_singleton _ _) (.here _)
  exact queries_agree_with_paths s "shopping-list" plan [.key "orders", .position 2, .key "title"]
    list.value (.text "milk") root (by with_unfolding_all rfl) rfl reaches

/-- A quote that a name opens goes on behind it, and hides the query but not the bracket. -/
theorem open_quotes_hide_queries :
    let list : Variable := { name := "it's", value := .list [.text "milk"] }
    let s : Store := { memory := { vars := [("it's", list)] } }
    Plan.Names "it's" { expr := "it's", root := "it's" } ∧ s.getValue "it's" = .ok list.value ∧
      Value.Reaches [.position 1] list.value (.text "milk") ∧
      s.getValue "it's[1]" = .ok (.text "milk") ∧
      s.getValue "it's.$[0]" = .error (.invalidExpression "it's.$[0]" "indexes start at 1") := by
  intro list s
  have named : Plan.Names "it's" { expr := "it's", root := "it's" } :=
    ⟨by with_unfolding_all rfl, rfl, rfl, by decide +kernel⟩
  exact ⟨named, by with_unfolding_all rfl, .element (by decide) (by decide) rfl (.here _),
    by with_unfolding_all rfl, by with_unfolding_all rfl⟩

end Store

end GoalScript
