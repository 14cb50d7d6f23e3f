import GoalScript.Proofs.Routes
import GoalScript.Proofs.Visibility

namespace GoalScript

namespace Value

variable {members : List (String × Value)} {items : List Value} {place : Place}
  {path rest : List Place} {name : String} {new u v w : Value} {n : Nat}

theorem removeAt_member (members : List (String × Value)) (place : Place) :
    removeAt [place] (.object members) =
      .object (Table.erase members (storedName members place.name)) := by
  cases place with
  | key k => rfl
  | position n =>
    rw [Place.name, storedName_toString]
    rfl

theorem removeAt_below_member (deeper : rest ≠ [])
    (found : findMember? members place.name = some (name, u)) :
    removeAt (place :: rest) (.object members) =
      .object (Table.insert members name (removeAt rest u)) := by
  obtain ⟨next, later, rfl⟩ := List.exists_cons_of_ne_nil deeper
  cases place with
  | key k =>
    rw [Place.name] at found
    simp [removeAt, found]
  | position n =>
    have digits : name = toString n := Text.sameName_toString_iff.mp (sameName_of_findMember? found)
    rw [digits] at found ⊢
    simp only [removeAt, lookup_of_findMember? found]

theorem removeAt_below_element (deeper : rest ≠ []) (low : 0 < n) (found : items[n - 1]? = some u) :
    removeAt (.position n :: rest) (.list items) =
      .list (items.set (n - 1) (removeAt rest u)) := by
  obtain ⟨next, later, rfl⟩ := List.exists_cons_of_ne_nil deeper
  have there : n ≠ 0 := by omega
  simp [removeAt, there, found]

/-- Where a step leads on, no container is made for it. -/
theorem opened_of_step? (leads : v.step? place = some u) : v.opened place = v := by
  unfold opened
  split
  · cases v <;> first | cases leads | contradiction
  · rfl

theorem step?_of_follow?_cons (leads : v.follow? (place :: rest) ≠ none) :
    ∃ u, v.step? place = some u ∧ u.follow? rest ≠ none := by
  cases step : v.step? place with
  | none => simp [follow?, step] at leads
  | some u => exact ⟨u, rfl, by simpa [follow?, step] using leads⟩

/-- A removal takes out what a write puts in: where the path leads to something, it makes no
difference what has been written there before. -/
theorem Written.removeAt_eq (written : Written new path v w) (inside : path ≠ [])
    (leads : v.follow? path ≠ none) : removeAt path w = removeAt path v := by
  induction written with
  | here v => exact absurd rfl inside
  | @member v inner members place rest target below ih =>
    obtain ⟨u, step, onwards⟩ := step?_of_follow?_cons leads
    rw [opened_of_step? step] at target
    subst target
    rw [step, Option.getD_some] at ih
    have stored := storedName_of_found (findMember?_insert members place.name inner)
    by_cases last : rest = []
    · subst last
      rw [removeAt_member, removeAt_member, stored, Table.erase_insert]
    · obtain ⟨⟨name, u'⟩, found, rfl⟩ := Option.map_eq_some_iff.mp step
      rw [removeAt_below_member last (findMember?_insert members place.name inner),
        removeAt_below_member last found, storedName_of_found found, Table.insert_insert,
        ih last onwards]
  | @element v inner items n rest target low high below ih =>
    obtain ⟨u, step, onwards⟩ := step?_of_follow?_cons leads
    rw [opened_of_step? step] at target
    subst target
    rw [step, Option.getD_some] at ih
    have there : n ≠ 0 := by omega
    have found : items[n - 1]? = some u := by simpa [step?, there] using step
    have within : n - 1 < items.length := (List.getElem?_eq_some_iff.mp found).1
    have set : items.take (n - 1) ++ inner :: items.drop n = items.set (n - 1) inner := by
      rw [List.set_eq_take_append_cons_drop, if_pos within, Nat.sub_add_cancel low]
    rw [set]
    by_cases last : rest = []
    · subst last
      simp [removeAt, there, List.eraseIdx_set_eq]
    · rw [removeAt_below_element last low (List.getElem?_set_self within),
        removeAt_below_element last low found, List.set_set, ih last onwards]

end Value

/-- The names of the clock and of the settings are names of no variable that is set. -/
def Store.IsLawful (s : Store) : Prop :=
  ∀ plan : Plan, plan.IsReserved → ∀ scope, ¬ s.IsSetIn plan.key scope

namespace Store

variable {s t : Store} {expr key : String} {plan : Plan} {v : Value} {x : Variable} {scope : Scope}
  {path : List Place}

theorem isSetIn_setInScope {other : String} {scope' : Scope} :
    (s.setInScope key x scope).IsSetIn other scope' ↔
      if other = key ∧ scope' = scope then x.isSet = true else s.IsSetIn other scope' := by
  unfold IsSetIn
  rw [inScope_setInScope]
  split <;> simp

theorem isSetIn_queue {type : EventType} :
    (s.queue x type v).IsSetIn key scope ↔ s.IsSetIn key scope := by
  unfold IsSetIn
  rw [inScope_queue]

namespace IsLawful

/-- Nothing but a variable that was set before, or may be set, has been set. -/
theorem setInScope {q : Store} (h : s.IsLawful)
    (same : ∀ key scope, q.IsSetIn key scope ↔ s.IsSetIn key scope)
    (allowed : x.isSet = true → s.IsSetIn key scope ∨ ∀ plan : Plan, plan.key = key →
      ¬ plan.IsReserved) : (q.setInScope key x scope).IsLawful := by
  intro plan reserved scope' set
  rw [isSetIn_setInScope] at set
  split at set
  · rename_i here
    obtain ⟨rfl, rfl⟩ := here
    rcases allowed set with before | free
    · exact h plan reserved _ before
    · exact free plan rfl reserved
  · exact h plan reserved scope' ((same _ _).mp set)

theorem writeTo (h : s.IsLawful) (wrote : s.writeTo expr v scope = .ok t) : t.IsLawful := by
  obtain ⟨plan, -, -, ⟨-, wrote⟩ | ⟨free, wrote⟩⟩ := writeTo_cases wrote
  · intro plan' reserved scope' set
    rw [IsSetIn, inScope_of_writeSetting wrote] at set
    exact h plan' reserved scope' set
  · obtain ⟨places, new, -, -, rfl⟩ := writeVariable_cases wrote
    refine h.setInScope (fun _ _ => isSetIn_queue) fun _ => .inr fun plan' same reserved => free ?_
    rw [Plan.IsReserved, same] at reserved
    exact reserved

theorem remove (h : s.IsLawful) (removed : s.remove expr = .ok t) : t.IsLawful := by
  obtain ⟨plan, -, ⟨-, rfl⟩ | ⟨x, found, left⟩⟩ := remove_cases removed
  · exact h
  · have set : s.IsSetIn plan.key (s.scopeOf expr) := ⟨x, Option.filter_eq_some_iff.mp found⟩
    rcases left with ⟨-, rfl⟩ | ⟨-, path, -, rfl⟩ <;>
      exact h.setInScope (fun _ _ => isSetIn_queue) fun _ => .inl set

/-- Whatever is done with a stack, it stays lawful. -/
theorem operate (h : s.IsLawful) (operation : Operation) : (s.operate operation).2.IsLawful := by
  cases operation with
  | put expr value =>
    simp only [Store.operate]
    cases wrote : s.put expr value with
    | error e => exact h
    | ok t => exact h.writeTo wrote
  | putShared expr value =>
    simp only [Store.operate]
    cases wrote : s.putShared expr value with
    | error e => exact h
    | ok t => exact h.writeTo wrote
  | remove expr =>
    simp only [Store.operate]
    cases removed : s.remove expr with
    | error e => exact h
    | ok t => exact h.remove removed
  | subscribe expr sub =>
    simp only [Store.operate, subscribe]
    refine h.setInScope (fun _ _ => Iff.rfl) fun set => .inl ?_
    cases found : s.inScope (rootOf expr).2 (s.scopeOf expr) with
    | none => simp [found, Variable.absent] at set
    | some x => exact ⟨x, found, by simpa [found] using set⟩
  | unsubscribe expr goalName type =>
    simp only [Store.operate, unsubscribe]
    split
    · exact h
    · rename_i x found
      exact h.setInScope (fun _ _ => Iff.rfl) fun set => .inl ⟨x, found, set⟩
  | setInEvent inEvent => exact h
  | takePending => exact h
  | reset =>
    intro plan reserved scope set
    cases scope with
    | own =>
      obtain ⟨x, found, -⟩ := set
      cases found
    | shared => exact h plan reserved .shared set

end IsLawful

def stored (s : Store) (plan : Plan) (scope : Scope) (new : Value) : Store :=
  (s.queue (s.written plan scope new) (s.writeEvent plan.key scope) new).setInScope plan.key
    (s.written plan scope new) scope

/-- A put by the expression goes to one path in the variable of one scope: it assigns there what is
put, and fails where that fails. -/
def PutsTo (s : Store) (expr : String) (plan : Plan) (scope : Scope) (path : List Place) : Prop :=
  ∀ v, s.put expr v =
    (Value.assign plan.expr v.structured path (s.current plan.key scope)).map (s.stored plan scope)

/-- One path in one variable has been taken out, or the variable as a whole. Goals are called for
only if they are subscribed to that variable. -/
structure Removed (s t : Store) (key : String) (scope : Scope) (path : List Place) (x : Variable) :
    Prop where
  others : ∀ other scope', other ≠ key ∨ scope' ≠ scope →
    t.inScope other scope' = s.inScope other scope'
  settings : t.shared.settings = s.shared.settings
  events : ∃ events, t.memory.pending = s.memory.pending ++ events ∧
    ∀ e ∈ events, e.variableName = x.name ∧ e.subscription ∈ x.subscriptions
  left : ∃ y, t.inScope key scope = some y ∧ y.name = x.name ∧
    y.subscriptions = x.subscriptions ∧
    if path = [] then y.isSet = false
    else y.isSet = true ∧ y.value = Value.removeAt path x.value

/-- A write assigns along its path and stores what comes of it. -/
theorem writeVariable_eq (located : s.places plan = .ok path) (v : Value) (scope : Scope) :
    s.writeVariable plan v scope =
      (Value.assign plan.expr v path (s.current plan.key scope)).map (s.stored plan scope) := by
  rw [writeVariable, writeVariableBy]
  dsimp only
  split
  · rename_i whole
    rw [places, placesBy, List.isEmpty_iff.mp whole] at located
    cases located
    rfl
  · rw [← places, located]
    change (Value.assign plan.expr v path (s.current plan.key scope) >>= _) = _
    cases Value.assign plan.expr v path (s.current plan.key scope) <;> rfl

/-- A put goes where its words lead. -/
theorem putsTo_of_places (parsed : Plan.parse expr = .ok plan) (plain : plan.arithmetic = none)
    (free : ¬ plan.IsReserved) (located : s.places plan = .ok path) :
    s.PutsTo expr plan (s.scopeOf expr) path := by
  intro v
  rw [put, writeTo_of_free parsed plain free, writeVariable_eq located]

/-- What goes on with an operation cannot be put to. -/
theorem put_of_arithmetic (parsed : Plan.parse expr = .ok plan) (goesOn : plan.arithmetic ≠ none)
    (v : Value) : s.put expr v = .error (.invalidExpression plan.expr
      "cannot assign to an arithmetic expression") := by
  rw [put, writeTo, writeToBy, parsed]
  change (if plan.arithmetic.isSome = true then _ else _) = _
  rw [if_pos (Option.isSome_iff_ne_none.mpr goesOn)]

theorem pending_queue (s : Store) (x : Variable) (type : EventType) (new : Value) :
    ∃ events, (s.queue x type new).memory.pending = s.memory.pending ++ events ∧
      ∀ e ∈ events, e.variableName = x.name ∧ e.subscription ∈ x.subscriptions := by
  unfold queue
  split
  · exact ⟨[], by simp, by simp⟩
  · refine ⟨_, rfl, fun e member => ?_⟩
    obtain ⟨sub, triggered, rfl⟩ := List.mem_map.mp member
    exact ⟨rfl, (List.mem_filter.mp triggered).1⟩

theorem settings_queue (s : Store) (x : Variable) (type : EventType) (new : Value) :
    (s.queue x type new).shared.settings = s.shared.settings := by
  unfold queue
  split <;> rfl

/-- What a removal stores takes out one path in one variable. -/
theorem removed_setInScope (s : Store) (type : EventType) (new : Value) {y : Variable}
    (name : y.name = x.name) (subscriptions : y.subscriptions = x.subscriptions)
    (left : if path = [] then y.isSet = false
      else y.isSet = true ∧ y.value = Value.removeAt path x.value) :
    s.Removed ((s.queue x type new).setInScope key y scope) key scope path x where
  others other scope' differs := by
    rw [inScope_setInScope, inScope_queue, if_neg (not_and_or.mpr differs)]
  settings := by
    rw [← s.settings_queue x type new]
    cases scope <;> rfl
  events := by
    obtain ⟨events, queued, theirs⟩ := s.pending_queue x type new
    refine ⟨events, ?_, theirs⟩
    rw [← queued]
    cases scope <;> rfl
  left := ⟨y, by rw [inScope_setInScope, if_pos ⟨rfl, rfl⟩], name, subscriptions, left⟩

theorem nonempty_of_places (located : s.places plan = .ok path) (inside : plan.segments ≠ []) :
    path ≠ [] := by
  have same := (Resolved.mapM_eq_ok_iff.mp located).length_eq
  rintro rfl
  exact inside (List.length_eq_zero_iff.mp same)

/-- A removal changes nothing, or takes out the path that its expression stands for. -/
theorem removed_of_remove (h : s.remove expr = .ok t) : t = s ∨
    ∃ plan path x, Plan.parse expr = .ok plan ∧ s.places plan = .ok path ∧
      s.inScope plan.key (s.scopeOf expr) = some x ∧ x.isSet = true ∧
      s.Removed t plan.key (s.scopeOf expr) path x := by
  obtain ⟨plan, parsed, ⟨-, rfl⟩ | ⟨x, found, left⟩⟩ := remove_cases h
  · exact .inl rfl
  · obtain ⟨found, set⟩ := Option.filter_eq_some_iff.mp found
    rcases left with ⟨whole, rfl⟩ | ⟨inside, path, located, rfl⟩
    · have located : s.places plan = .ok [] := by
        rw [places, placesBy, List.isEmpty_iff.mp whole]
        rfl
      exact .inr ⟨plan, [], x, parsed, located, found, set,
        s.removed_setInScope .onRemove .null rfl rfl rfl⟩
    · refine .inr ⟨plan, path, x, parsed, located, found, set,
        s.removed_setInScope .onChange _ rfl rfl ?_⟩
      rw [if_neg (nonempty_of_places located (by simpa using inside))]
      exact ⟨rfl, rfl⟩

end Store

namespace Stacks

variable {w : Stacks}

/-- Stacks that are lawful at first stay so, however they are used. -/
theorem lawful_useAll (start : ∀ i now, (w.store i now).IsLawful) (uses : List Use) (i : Nat)
    (now : Calendar.Instant) : ((w.useAll uses).store i now).IsLawful := by
  induction uses using List.reverseRecOn generalizing i now with
  | nil => exact start i now
  | append_singleton uses u ih =>
    have used := (ih u.stack u.now).operate u.operation
    rw [useAll_concat]
    intro plan reserved scope set
    cases scope with
    | shared => exact used plan reserved .shared set
    | own =>
      by_cases mine : u.stack = i
      · subst mine
        rw [Store.IsSetIn, Store.inScope, store, memories_use_self] at set
        exact used plan reserved .own set
      · rw [Store.IsSetIn, Store.inScope, store, memories_use_of_ne mine] at set
        exact ih i now plan reserved .own set

/-- However stacks that share variables have been used: a removal changes nothing, or takes out one
path in the variable that its expression starts from, and calls for goals that are subscribed to
that variable. Unless the expression goes on with an operation, this is the path that a put by it
goes to, and takes out there what has been put. If it does go on with one, a put refuses it, and the
removal takes out what stands before the operation. -/
theorem removals_stay_where_puts_go (w : Stacks) (uses : List Use) (i : Nat)
    (now : Calendar.Instant) (expr : String) (t : Store)
    (start : ∀ j now, (w.store j now).IsLawful) :
    let s := (w.useAll uses).store i now
    s.remove expr = .ok t → t = s ∨ ∃ plan path x, Plan.parse expr = .ok plan ∧
      s.places plan = .ok path ∧ s.inScope plan.key (s.scopeOf expr) = some x ∧ x.isSet = true ∧
      s.Removed t plan.key (s.scopeOf expr) path x ∧
      (plan.arithmetic = none → s.PutsTo expr plan (s.scopeOf expr) path ∧
        ∀ v u, s.put expr v = .ok u → path ≠ [] → x.value.follow? path ≠ none →
          ∃ y, u.inScope plan.key (s.scopeOf expr) = some y ∧
            Value.removeAt path y.value = Value.removeAt path x.value) ∧
      (plan.arithmetic ≠ none → ∀ v, s.put expr v = .error (.invalidExpression plan.expr
        "cannot assign to an arithmetic expression")) := by
  intro s removed
  rcases Store.removed_of_remove removed with
    same | ⟨plan, path, x, parsed, located, found, set, out⟩
  · exact .inl same
  · have free : ¬ plan.IsReserved := fun reserved =>
      lawful_useAll start uses i now plan reserved _ ⟨x, found, set⟩
    refine .inr ⟨plan, path, x, parsed, located, found, set, out, fun plain => ?_,
      Store.put_of_arithmetic parsed⟩
    have puts := Store.putsTo_of_places parsed plain free located
    refine ⟨puts, fun v u wrote inside leads => ?_⟩
    have current : s.current plan.key (s.scopeOf expr) = x.value := by
      simp [Store.current, found, Option.filter, set]
    rw [puts v, current] at wrote
    cases assigned : Value.assign plan.expr v.structured path x.value with
    | error e =>
      rw [assigned] at wrote
      cases wrote
    | ok new =>
      rw [assigned] at wrote
      cases wrote
      refine ⟨s.written plan (s.scopeOf expr) new, ?_,
        (Value.written_of_assign assigned).removeAt_eq inside leads⟩
      rw [Store.stored, Store.inScope_setInScope, if_pos ⟨rfl, rfl⟩]

theorem lawful_of_empty (i : Nat) (now : Calendar.Instant) :
    (store {} i now).IsLawful := by
  rintro plan - (_ | _) ⟨x, found, -⟩ <;> cases found

/-- A member of an object is removed, with a goal subscribed to the changes of the object. -/
theorem removals_stay_where_puts_go_in_object :
    let watch : Subscription := { eventType := .onChange, goalName := "Watch" }
    let user : Value := .object [("age", .null), ("name", .text "Ann")]
    let s := (useAll {} [⟨0, ⟨0, 0⟩, .put "user" user⟩, ⟨0, ⟨0, 0⟩, .subscribe "user" watch⟩]).store
      0 ⟨0, 0⟩
    ∃ t plan x, s.remove "User.Name" = .ok t ∧ t.memory.pending.length = 1 ∧
      s.PutsTo "User.Name" plan .own [.key "Name"] ∧
      s.Removed t plan.key .own [.key "Name"] x := by
  intro watch user s
  have done : (s.remove "User.Name").toOption.map (fun t => t.memory.pending.length) = some 1 := by
    decide +kernel
  obtain ⟨t, removed, queued⟩ := Resolved.exists_of_map done
  have out := removals_stay_where_puts_go {} _ 0 ⟨0, 0⟩ "User.Name" t lawful_of_empty removed
  rcases out with same | ⟨plan, path, x, parsed, located, -, -, out, puts, -⟩
  · have nothing : s.memory.pending.length = 0 := by decide +kernel
    rw [same] at queued
    cases nothing.symm.trans queued
  · let known : Plan := {
      expr := "User.Name", root := "User", segments := [.property "Name"], arithmetic := none }
    have parsed' : Plan.parse "User.Name" = .ok known := by with_unfolding_all rfl
    obtain rfl : known = plan := Except.ok.inj (parsed'.symm.trans parsed)
    cases located
    have own : s.scopeOf "User.Name" = .own := by decide +kernel
    have puts := (puts rfl).1
    rw [own] at puts out
    exact ⟨t, known, x, removed, queued, puts, out⟩

/-- A removal does not mind the operation that a put refuses, and takes away the variable before
it. -/
theorem removals_reach_what_puts_refuse :
    let s := (useAll {} [⟨0, ⟨0, 0⟩, .put "item" (.bool true)⟩]).store 0 ⟨0, 0⟩
    (∃ shown, ∀ v, s.put "item-2" v =
      .error (.invalidExpression shown "cannot assign to an arithmetic expression")) ∧
    s.contains "item" = true ∧ ∃ t, s.remove "item-2" = .ok t ∧ t.contains "item" = false := by
  intro s
  refine ⟨?_, by decide +kernel, Resolved.exists_of_map (by decide +kernel)⟩
  have goesOn : (Plan.parse "item-2").toOption.map (fun plan => plan.arithmetic.isSome) =
      some true := by decide +kernel
  obtain ⟨plan, parsed, goesOn⟩ := Resolved.exists_of_map goesOn
  exact ⟨_, Store.put_of_arithmetic parsed (Option.isSome_iff_ne_none.mp goesOn)⟩

end Stacks

end GoalScript
