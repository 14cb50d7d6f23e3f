import GoalScript.Proofs.Queries

namespace GoalScript

namespace Place

inductive Before : Place → Place → Prop where
  | position {m n : Nat} (h : m < n) : Before (.position m) (.position n)
  | key {k l : String} (h : k < l) : Before (.key k) (.key l)

/-- Depth first: what begins like a place and goes on comes behind it. -/
def Earlier (p q : List Place) : Prop := List.Lex Before p q

end Place

namespace Value

def contents : Value → List (Place × Value)
  | .list items => items.mapIdx fun i item => (.position (i + 1), item)
  | .object members => members.map fun m => (.key m.1, m.2)
  | _ => []

/-- What is found at a place: the value itself at its own, and what containers hold below. -/
inductive Holds : Value → List Place → Value → Prop where
  | here (v : Value) : Holds v [] v
  | inside {v w : Value} {c : Place × Value} {rest : List Place} (mem : c ∈ v.contents)
      (holds : Holds c.2 rest w) : Holds v (c.1 :: rest) w

def Everywhere (P : List (String × Value) → Prop) (v : Value) : Prop :=
  ∀ place members, v.Holds place (.object members) → P members

def IsOrdered (v : Value) : Prop := v.Everywhere Table.Sorted

/-- No two names in an object are equal up to case. -/
def IsDistinct (v : Value) : Prop :=
  v.Everywhere fun members => members.Pairwise fun m n => Text.sameName m.1 n.1 = false

variable {P : List (String × Value) → Prop} {v u w : Value} {place : Place} {rest : List Place}

theorem Everywhere.inside (all : v.Everywhere P) {c : Place × Value} (mem : c ∈ v.contents) :
    c.2.Everywhere P :=
  fun place members holds => all (c.1 :: place) members (.inside mem holds)

theorem everywhere_iff : v.Everywhere P ↔
    (∀ members, v = .object members → P members) ∧ ∀ c ∈ v.contents, c.2.Everywhere P := by
  constructor
  · intro all
    refine ⟨fun members same => ?_, fun c mem => all.inside mem⟩
    subst same
    exact all [] members (.here _)
  · rintro ⟨own, inside⟩ place members holds
    cases holds with
    | here => exact own members rfl
    | inside mem holds => exact inside _ mem _ members holds

/-- Only containers hold something. -/
theorem everywhere_of_scalar (scalar : v.isStructured = false) : v.Everywhere P := by
  rw [everywhere_iff]
  cases v <;> simp_all [contents, isStructured]

theorem everywhere_list {items : List Value} :
    (list items).Everywhere P ↔ ∀ item ∈ items, item.Everywhere P := by
  rw [everywhere_iff, @List.forall_mem_iff_forall_getElem _ _ items]
  simp only [reduceCtorEq, IsEmpty.forall_iff, implies_true, true_and, contents, List.mem_mapIdx]
  constructor
  · intro all i short
    exact all _ ⟨i, short, rfl⟩
  · rintro all c ⟨i, short, rfl⟩
    exact all i short

theorem everywhere_object {members : List (String × Value)} :
    (object members).Everywhere P ↔ P members ∧ ∀ m ∈ members, m.2.Everywhere P := by
  rw [everywhere_iff]
  simp only [object.injEq, forall_eq', contents, List.forall_mem_map]

mutual

/-- What is read from JSON has its members sorted. -/
theorem isOrdered_ofJson : (json : Json) → (ofJson json).IsOrdered
  | .array items => everywhere_list.mpr (isOrdered_itemsOfJson items)
  | .object members => by
    refine everywhere_object.mpr ⟨Table.sorted_ofList _, fun m mem => ?_⟩
    exact isOrdered_membersOfJson members m (Table.mem_of_mem_ofList mem)
  | .null | .bool _ | .int _ | .float _ | .text _ => everywhere_of_scalar rfl

theorem isOrdered_itemsOfJson : (items : List Json) → ∀ v ∈ itemsOfJson items, v.IsOrdered
  | [] => List.forall_mem_nil _
  | json :: rest => List.forall_mem_cons.mpr ⟨isOrdered_ofJson json, isOrdered_itemsOfJson rest⟩

theorem isOrdered_membersOfJson :
    (members : List (String × Json)) → ∀ m ∈ membersOfJson members, m.2.IsOrdered
  | [] => List.forall_mem_nil _
  | (_, json) :: rest =>
    List.forall_mem_cons.mpr ⟨isOrdered_ofJson json, isOrdered_membersOfJson rest⟩

end

theorem sizeOf_lt_of_contents {c : Place × Value} (mem : c ∈ v.contents) :
    sizeOf c.2 < sizeOf v := by
  cases v with
  | list items =>
    obtain ⟨i, short, rfl⟩ := List.mem_mapIdx.mp mem
    have small := List.sizeOf_lt_of_mem (List.getElem_mem short)
    simp only [list.sizeOf_spec]
    omega
  | object members =>
    obtain ⟨m, there, rfl⟩ := List.mem_map.mp mem
    have small := List.sizeOf_lt_of_mem there
    obtain ⟨k, u⟩ := m
    simp only [Prod.mk.sizeOf_spec, object.sizeOf_spec] at small ⊢
    omega
  | _ => cases mem

/-- A container holds what it holds in the order of places. -/
theorem contents_ordered (ordered : v.IsOrdered) :
    v.contents.Pairwise fun a b => Place.Before a.1 b.1 := by
  cases v with
  | list items =>
    apply List.pairwise_iff_getElem.mpr
    intro i j hi hj less
    simp only [contents, List.getElem_mapIdx]
    exact .position (Nat.succ_lt_succ less)
  | object members =>
    have sorted := List.pairwise_map.mp (ordered [] members (.here _))
    exact List.pairwise_map.mpr (sorted.imp .key)
  | _ => exact .nil

end Value

namespace Query

open Value Place

theorem descendantsOfItems_eq (items : List Value) :
    descendantsOfItems items = items.flatMap descendants := by
  induction items with
  | nil => rfl
  | cons item items ih => rw [descendantsOfItems, ih, List.flatMap_cons]

theorem descendantsOfMembers_eq (members : List (String × Value)) :
    descendantsOfMembers members = members.flatMap fun m => descendants m.2 := by
  induction members with
  | nil => rfl
  | cons m members ih => rw [descendantsOfMembers, ih, List.flatMap_cons]

theorem descendants_eq (v : Value) :
    descendants v = v :: v.contents.flatMap fun c => descendants c.2 := by
  cases v with
  | list items =>
    have each : (items.mapIdx fun i item => (Place.position (i + 1), item)).map Prod.snd =
        items := by
      apply List.ext_getElem <;> simp
    have below : items.flatMap descendants =
        (contents (.list items)).flatMap fun c => descendants c.2 := by
      rw [contents, ← List.flatMap_map Prod.snd descendants, each]
    rw [descendants, descendantsOfItems_eq, below]
  | object members =>
    rw [descendants, descendantsOfMembers_eq, contents, List.flatMap_map]
  | _ => rfl

/-- Everything with the property, each at its place, once and in preorder. -/
structure Enumerates (P : List Place → Value → Prop) (found : List (List Place × Value)) :
    Prop where
  ordered : found.Pairwise fun a b => Earlier a.1 b.1
  mem_iff : ∀ place w, (place, w) ∈ found ↔ P place w

/-- The value itself comes before all that is below it. -/
theorem Enumerates.cons_here {v : Value} {found : List (List Place × Value)}
    (below : Enumerates (fun place w => place ≠ [] ∧ v.Holds place w) found) :
    Enumerates v.Holds (([], v) :: found) where
  ordered := by
    refine List.pairwise_cons.mpr ⟨?_, below.ordered⟩
    intro c mem
    obtain ⟨place, w⟩ := c
    obtain ⟨first, rest, rfl⟩ := List.exists_cons_of_ne_nil ((below.mem_iff place w).mp mem).1
    exact .nil
  mem_iff place w := by
    rw [List.mem_cons, below.mem_iff]
    constructor
    · rintro (here | ⟨-, holds⟩)
      · obtain ⟨rfl, rfl⟩ := Prod.mk.inj here
        exact .here w
      · exact holds
    · intro holds
      cases holds with
      | here => exact .inl rfl
      | inside mem holds => exact .inr ⟨List.cons_ne_nil _ _, .inside mem holds⟩

/-- What is made of each value stays in its place. -/
theorem Enumerates.filterMap {P : List Place → Value → Prop} {found : List (List Place × Value)}
    (all : Enumerates P found) (f : Value → Option Value) :
    Enumerates (fun place w => ∃ u, P place u ∧ f u = some w)
      (found.filterMap fun c => (f c.2).map fun w => (c.1, w)) where
  ordered := by
    refine List.pairwise_filterMap.mpr (all.ordered.imp ?_)
    intro a b earlier c hc d hd
    obtain ⟨u, -, rfl⟩ := Option.map_eq_some_iff.mp hc
    obtain ⟨w, -, rfl⟩ := Option.map_eq_some_iff.mp hd
    exact earlier
  mem_iff place w := by
    simp only [List.mem_filterMap, Option.map_eq_some_iff, Prod.exists, Prod.mk.injEq, all.mem_iff]
    constructor
    · rintro ⟨place, u, holds, v, made, rfl, rfl⟩
      exact ⟨u, holds, made⟩
    · rintro ⟨u, holds, made⟩
      exact ⟨place, u, holds, w, made, rfl, rfl⟩

theorem map_snd_filterMap (f : Value → Option Value) (found : List (List Place × Value)) :
    (found.filterMap fun c => (f c.2).map fun w => (c.1, w)).map Prod.snd =
      (found.map Prod.snd).filterMap f := by
  simp [List.map_filterMap, List.filterMap_map, Function.comp_def]

/-- What is in several things comes in their order. -/
theorem enumerates_contents {cs : List (Place × Value)}
    (ordered : cs.Pairwise fun a b => Before a.1 b.1)
    (each : ∀ c ∈ cs, ∃ found, Enumerates c.2.Holds found ∧
      found.map Prod.snd = descendants c.2) :
    ∃ found, Enumerates
        (fun place w => ∃ c ∈ cs, ∃ rest, place = c.1 :: rest ∧ c.2.Holds rest w) found ∧
      found.map Prod.snd = cs.flatMap fun c => descendants c.2 := by
  induction cs with
  | nil => exact ⟨[], ⟨.nil, by simp⟩, rfl⟩
  | cons c cs ih =>
    obtain ⟨first, later⟩ := List.pairwise_cons.mp ordered
    obtain ⟨one, others⟩ := List.forall_mem_cons.mp each
    obtain ⟨own, enumerated, values⟩ := one
    obtain ⟨more, enumerated', values'⟩ := ih later others
    refine ⟨own.map (fun d => (c.1 :: d.1, d.2)) ++ more, ⟨?_, ?_⟩, ?_⟩
    · refine List.pairwise_append.mpr ⟨?_, enumerated'.ordered, ?_⟩
      · exact List.pairwise_map.mpr (enumerated.ordered.imp .cons)
      · intro a ha b hb
        obtain ⟨d, -, rfl⟩ := List.mem_map.mp ha
        obtain ⟨e, mem, rest, same, -⟩ := (enumerated'.mem_iff b.1 b.2).mp hb
        rw [same]
        exact .rel (first e mem)
    · intro place w
      simp only [List.mem_append, List.mem_map, Prod.exists, Prod.mk.injEq, enumerated'.mem_iff,
        enumerated.mem_iff, List.exists_mem_cons_iff]
      apply or_congr_left
      constructor
      · rintro ⟨rest, v, holds, rfl, rfl⟩
        exact ⟨rest, rfl, holds⟩
      · rintro ⟨rest, rfl, holds⟩
        exact ⟨rest, w, holds, rfl, rfl⟩
    · rw [List.map_append, List.map_map, values', List.flatMap_cons, ← values]
      rfl

/-- The values below a value are found in all the places below its own. -/
theorem enumerates_below (v : Value) (ordered : v.IsOrdered) :
    ∃ found, Enumerates (fun place w => place ≠ [] ∧ v.Holds place w) found ∧
      found.map Prod.snd = v.contents.flatMap fun c => descendants c.2 := by
  have each : ∀ c ∈ v.contents, ∃ found, Enumerates c.2.Holds found ∧
      found.map Prod.snd = descendants c.2 := by
    intro c mem
    obtain ⟨found, enumerated, values⟩ := enumerates_below c.2 (ordered.inside mem)
    refine ⟨([], c.2) :: found, enumerated.cons_here, ?_⟩
    rw [List.map_cons, values, ← descendants_eq]
  obtain ⟨found, enumerated, values⟩ := enumerates_contents (contents_ordered ordered) each
  refine ⟨found, ⟨enumerated.ordered, fun place w => ?_⟩, values⟩
  rw [enumerated.mem_iff]
  constructor
  · rintro ⟨c, mem, rest, rfl, holds⟩
    exact ⟨List.cons_ne_nil _ _, .inside mem holds⟩
  · rintro ⟨some, holds⟩
    cases holds with
    | here => exact absurd rfl some
    | inside mem holds => exact ⟨_, mem, _, rfl, holds⟩
termination_by sizeOf v
decreasing_by exact sizeOf_lt_of_contents mem

variable {name : String} {members : List (String × Value)} {v w : Value}

/-- The name at the end of a path takes in everything but points and brackets. -/
theorem parse_descent (present : name ≠ "") (bare : Text.trim name.toList = name.toList)
    (point : '.' ∉ name.toList) (bracket : '[' ∉ name.toList) :
    parse ("$.." ++ name) = .ok [.descend (if name = "*" then none else some name)] := by
  have letters : name.toList ≠ [] := by simpa using present
  have inside : ∀ c ∈ name.toList, isNameChar c = true := by
    intro c mem
    have other : c ≠ '.' ∧ c ≠ '[' :=
      ⟨fun same => point (same ▸ mem), fun same => bracket (same ▸ mem)⟩
    simp [isNameChar, other]
  have trimmed : Text.trim ("$.." ++ name).toList = '$' :: '.' :: '.' :: name.toList := by
    rw [String.toList_append, Text.trim_append_of_begins (by decide)
      (Text.begins_of_trim bare letters), bare]
    rfl
  have star : (name.toList == ['*']) = decide (name = "*") := by
    rw [Bool.eq_iff_iff, beq_iff_eq, decide_eq_true_iff, ← String.toList_inj]
    rfl
  have read : described name.toList true =
      .ok (.descend (if name = "*" then none else some name)) := by
    simp [described, star, letters]
  apply parse_eq_ok_iff.mpr
  rw [trimmed]
  change steps ('.' :: '.' :: name.toList) = _
  rw [steps, List.takeWhile_eq_self_iff.mpr inside, List.dropWhile_eq_nil_iff.mpr inside, read,
    steps]
  rfl

theorem exists_of_member? (h : v.member? name = some w) : ∃ members, v = .object members := by
  cases v with
  | object members => exact ⟨members, rfl⟩
  | _ => cases h

/-- If no two names are equal up to case, a name leads to the member with an equal one. -/
theorem member?_eq_some_iff
    (distinct : members.Pairwise fun m n => Text.sameName m.1 n.1 = false) :
    (Value.object members).member? name = some w ↔
      ∃ k, (k, w) ∈ members ∧ Text.sameName k name = true := by
  constructor
  · intro found
    obtain ⟨⟨k, u⟩, denoted, rfl⟩ := Option.map_eq_some_iff.mp found
    exact ⟨k, mem_of_findMember? denoted, sameName_of_findMember? denoted⟩
  · rintro ⟨k, there, same⟩
    simp [member?, (denotes_of_pairwise there same distinct).found]

/-- A descent to a name finds, in preorder, the member of each object that has one of that name, the
value itself and what is below matches included. A descent to anything finds everything below. -/
theorem descents_find_each (doc : Value) (ordered : doc.IsOrdered) :
    (∀ name : String, name ≠ "" → name ≠ "*" → '.' ∉ name.toList → '[' ∉ name.toList →
        Text.trim name.toList = name.toList → doc.IsDistinct →
      ∃ found, Enumerates (fun place w => ∃ members k, doc.Holds place (.object members) ∧
          (k, w) ∈ members ∧ Text.sameName k name = true) found ∧
        query doc ("$.." ++ name) = .ok (found.map Prod.snd)) ∧
    ∃ found, Enumerates (fun place w => place ≠ [] ∧ doc.Holds place w) found ∧
      query doc "$..*" = .ok (found.map Prod.snd) := by
  obtain ⟨below, enumerated, values⟩ := enumerates_below doc ordered
  have everything : descendants doc = doc :: below.map Prod.snd := by rw [descendants_eq, values]
  have one (step : Step) : run [step] doc = step.apply doc := by simp [run]
  constructor
  · intro name present star point bracket bare distinct
    have parsed := parse_descent present bare point bracket
    rw [if_neg star] at parsed
    have found := enumerated.cons_here.filterMap fun w => w.member? name
    refine ⟨_, ⟨found.ordered, fun place w => ?_⟩, ?_⟩
    · rw [found.mem_iff]
      constructor
      · rintro ⟨u, holds, there⟩
        obtain ⟨members, rfl⟩ := exists_of_member? there
        obtain ⟨k, mem, same⟩ := (member?_eq_some_iff (distinct place members holds)).mp there
        exact ⟨members, k, holds, mem, same⟩
      · rintro ⟨members, k, holds, mem, same⟩
        exact ⟨_, holds, (member?_eq_some_iff (distinct place members holds)).mpr ⟨k, mem, same⟩⟩
    · rw [map_snd_filterMap fun w => w.member? name, List.map_cons, ← everything, query, parsed]
      simp [Except.map, one, Step.apply]
  · have parsed : parse "$..*" = .ok [.descend none] :=
      @parse_descent "*" (by decide) (by decide) (by decide) (by decide)
    refine ⟨below, enumerated, ?_⟩
    rw [query, parsed]
    simp [Except.map, one, Step.apply, everything]

/-- Inside a match, below a list, and by names in another case. -/
theorem descents_find_each_id :
    let doc := Value.object
      [("id", .object [("id", .text "a")]), ("items", .list [.null, .object [("ID", .null)]])]
    ∃ found, Enumerates (fun place w => ∃ members k, doc.Holds place (.object members) ∧
        (k, w) ∈ members ∧ Text.sameName k "Id" = true) found ∧
      query doc "$..Id" = .ok (found.map Prod.snd) ∧
      found.map Prod.snd = [.object [("id", .text "a")], .text "a", .null] := by
  intro doc
  have everywhere {P : List (String × Value) → Prop} (own : P [("id", .object [("id", .text "a")]),
        ("items", .list [.null, .object [("ID", .null)]])])
      (first : P [("id", .text "a")]) (last : P [("ID", .null)]) : doc.Everywhere P := by
    have text : (Value.text "a").Everywhere P := everywhere_of_scalar rfl
    have null : Value.null.Everywhere P := everywhere_of_scalar rfl
    simp [doc, everywhere_object, everywhere_list, own, first, last, text, null]
  have ordered : doc.IsOrdered := by
    apply everywhere <;> unfold Table.Sorted <;> decide
  have distinct : doc.IsDistinct := everywhere (by decide) (by decide) (by decide)
  obtain ⟨found, enumerated, queried⟩ := (descents_find_each doc ordered).1 "Id" (by decide)
    (by decide) (by decide) (by decide) (by decide) distinct
  have computed : query doc "$..Id" = .ok [.object [("id", .text "a")], .text "a", .null] := by
    with_unfolding_all rfl
  exact ⟨found, enumerated, queried, Except.ok.inj (queried.symm.trans computed)⟩

end Query

end GoalScript
