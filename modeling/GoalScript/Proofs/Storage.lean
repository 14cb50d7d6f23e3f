import GoalScript.Proofs.Writes

namespace GoalScript

namespace Plan

def key (plan : Plan) : String := Text.lowercase plan.root

/-- What the plan starts from is no variable. -/
def IsReserved (plan : Plan) : Prop :=
  plan.key = "now" ∨ plan.key = "nowutc" ∨ plan.key = "settings"

instance (plan : Plan) : Decidable plan.IsReserved :=
  inferInstanceAs (Decidable (_ ∨ _ ∨ _))

end Plan

namespace Store

variable {s t : Store} {expr key : String} {plan : Plan} {v : Value} {x : Variable} {scope : Scope}

@[simp]
theorem inScope_queue (s : Store) (x : Variable) (type : EventType) (value : Value) (key : String)
    (scope : Scope) : (s.queue x type value).inScope key scope = s.inScope key scope := by
  unfold queue
  split <;> cases scope <;> rfl

theorem inScope_setInScope (s : Store) (key other : String) (x : Variable) (scope scope' : Scope) :
    (s.setInScope key x scope).inScope other scope' =
      if other = key ∧ scope' = scope then some x else s.inScope other scope' := by
  cases scope <;> cases scope' <;> simp [setInScope, inScope, Table.get?_insert]

/-- The stack's own variables are looked up first. -/
theorem lookup?_eq (s : Store) (key : String) :
    s.lookup? key = (s.inScope key .own).or (s.inScope key .shared) := rfl

theorem rootOf_of_parse (parsed : Plan.parse expr = .ok plan) :
    rootOf expr = (plan.root, plan.key) := by
  unfold rootOf
  rw [parsed]
  rfl

/-- A variable is changed where it is shared only if the stack has none of its own. -/
theorem scopeOf_eq (s : Store) (expr : String) :
    s.scopeOf expr =
      if (s.inScope (rootOf expr).2 .own).isNone && (s.inScope (rootOf expr).2 .shared).isSome
      then .shared else .own := by
  unfold scopeOf
  dsimp only
  rw [Table.contains, Table.contains]
  change (if (!(s.inScope (rootOf expr).2 .own).isSome &&
    (s.inScope (rootOf expr).2 .shared).isSome) = true then _ else _) = _
  rw [Option.not_isSome]

/-- Where an expression is written is where its variable is looked up. -/
theorem inScope_scopeOf (s : Store) (expr : String) :
    s.inScope (rootOf expr).2 (s.scopeOf expr) = s.lookup? (rootOf expr).2 := by
  rw [lookup?_eq, scopeOf_eq]
  cases own : s.inScope (rootOf expr).2 .own <;>
    cases shared : s.inScope (rootOf expr).2 .shared <;> simp [own, shared]

/-- What is stored where an expression is written is what looking its variable up then gives. -/
theorem lookup?_setInScope_scopeOf (s : Store) (expr : String) (x y : Variable) (type : EventType)
    (value : Value) :
    ((s.queue y type value).setInScope (rootOf expr).2 x (s.scopeOf expr)).lookup?
      (rootOf expr).2 = some x := by
  simp only [lookup?_eq, inScope_setInScope, inScope_queue, scopeOf_eq]
  cases own : s.inScope (rootOf expr).2 .own <;>
    cases shared : s.inScope (rootOf expr).2 .shared <;> simp

/-- The value of a variable so far, null where it is not set. -/
def current (s : Store) (key : String) (scope : Scope) : Value :=
  (((s.inScope key scope).filter Variable.isSet).map Variable.value).getD .null

/-- A write starts from what is read. -/
theorem current_scopeOf (parsed : Plan.parse expr = .ok plan)
    (found : s.lookup? plan.key = some x) (set : x.isSet = true) :
    s.current plan.key (s.scopeOf expr) = x.value := by
  have stored := s.inScope_scopeOf expr
  rw [rootOf_of_parse parsed, found] at stored
  rw [current, stored]
  simp [Option.filter, set]

def subscriptionsTo (s : Store) (key : String) (scope : Scope) : List Subscription :=
  ((s.inScope key scope).map Variable.subscriptions).getD []

def written (s : Store) (plan : Plan) (scope : Scope) (new : Value) : Variable :=
  { name := plan.root, value := new, subscriptions := s.subscriptionsTo plan.key scope }

def writeEvent (s : Store) (key : String) (scope : Scope) : EventType :=
  if ((s.inScope key scope).filter Variable.isSet).isSome then .onChange else .onCreate

/-- What a write to a variable has done if it has succeeded. -/
theorem writeVariable_cases (h : s.writeVariable plan v scope = .ok t) :
    ∃ places new, s.places plan = .ok places ∧
      Value.assign plan.expr v places (s.current plan.key scope) = .ok new ∧
      t = (s.queue (s.written plan scope new) (s.writeEvent plan.key scope) new).setInScope
        plan.key (s.written plan scope new) scope := by
  unfold writeVariable writeVariableBy at h
  dsimp only at h
  split at h
  · rename_i here
    cases h
    have direct : plan.segments = [] := List.isEmpty_iff.mp here
    refine ⟨[], v, ?_, rfl, rfl⟩
    rw [places, placesBy, direct]
    rfl
  · obtain ⟨places, located, h⟩ := Resolved.bind_eq_ok.mp h
    obtain ⟨new, assigned, h⟩ := Resolved.bind_eq_ok.mp h
    cases h
    exact ⟨places, new, located, assigned, rfl⟩

/-- A write goes to a setting or to a variable. -/
theorem writeTo_cases (h : s.writeTo expr v scope = .ok t) :
    ∃ plan, Plan.parse expr = .ok plan ∧ plan.arithmetic = none ∧
      (plan.key = "settings" ∧ s.writeSetting plan v.structured = .ok t ∨
        ¬ plan.IsReserved ∧ s.writeVariable plan v.structured scope = .ok t) := by
  unfold writeTo writeToBy at h
  obtain ⟨plan, parsed, h⟩ := Resolved.bind_eq_ok.mp h
  dsimp only at h
  refine ⟨plan, parsed, ?_⟩
  split at h
  · cases h
  · rename_i plain
    refine ⟨by simpa using plain, ?_⟩
    split at h
    · rename_i settings
      exact .inl ⟨beq_iff_eq.mp settings, h⟩
    · rename_i other
      split at h
      · cases h
      · rename_i clock
        refine .inr ⟨?_, h⟩
        simp only [Bool.or_eq_true, beq_iff_eq, not_or] at clock other
        rintro (now | utc | settings)
        · exact clock.1 now
        · exact clock.2 utc
        · exact other settings

/-- The same for a plan that is known. -/
theorem writeTo_of_parse (parsed : Plan.parse expr = .ok plan)
    (h : s.writeTo expr v scope = .ok t) :
    plan.arithmetic = none ∧
      (plan.key = "settings" ∧ s.writeSetting plan v.structured = .ok t ∨
        ¬ plan.IsReserved ∧ s.writeVariable plan v.structured scope = .ok t) := by
  obtain ⟨plan', parsed', written⟩ := writeTo_cases h
  obtain rfl : plan = plan' := Except.ok.inj (parsed.symm.trans parsed')
  exact written

/-- A write to a variable, where nothing stands against it. -/
theorem writeTo_of_free (parsed : Plan.parse expr = .ok plan) (plain : plan.arithmetic = none)
    (free : ¬ plan.IsReserved) :
    s.writeTo expr v scope = s.writeVariable plan v.structured scope := by
  obtain ⟨clock, utc, settings⟩ : plan.key ≠ "now" ∧ plan.key ≠ "nowutc" ∧ plan.key ≠ "settings" :=
    ⟨fun now => free (.inl now), fun utc => free (.inr (.inl utc)),
      fun settings => free (.inr (.inr settings))⟩
  rw [writeTo, writeToBy, parsed]
  change (if plan.arithmetic.isSome = true then _ else if (plan.key == "settings") = true then _
    else if (plan.key == "now" || plan.key == "nowutc") = true then _ else _) = _
  simp [plain, clock, utc, settings, writeVariable]

/-- What a removal makes of the variable that it is about: nothing, where that is not set. -/
theorem remove_cases (h : s.remove expr = .ok t) :
    ∃ plan, Plan.parse expr = .ok plan ∧
      ((s.inScope plan.key (s.scopeOf expr)).filter Variable.isSet = none ∧ t = s ∨
        ∃ x, (s.inScope plan.key (s.scopeOf expr)).filter Variable.isSet = some x ∧
          (plan.segments.isEmpty = true ∧
              t = (s.queue x .onRemove .null).setInScope plan.key
                { Variable.absent x.name with subscriptions := x.subscriptions } (s.scopeOf expr) ∨
            plan.segments.isEmpty = false ∧ ∃ path, s.places plan = .ok path ∧
              t = (s.queue x .onChange (Value.removeAt path x.value)).setInScope plan.key
                { name := x.name, value := Value.removeAt path x.value,
                  subscriptions := x.subscriptions } (s.scopeOf expr))) := by
  unfold remove removeBy at h
  obtain ⟨plan, parsed, h⟩ := Resolved.bind_eq_ok.mp h
  refine ⟨plan, parsed, ?_⟩
  dsimp only at h
  split at h
  · rename_i absent
    cases h
    exact .inl ⟨absent, rfl⟩
  · rename_i x found
    refine .inr ⟨x, found, ?_⟩
    split at h
    · rename_i whole
      cases h
      exact .inl ⟨whole, rfl⟩
    · rename_i inside
      obtain ⟨path, located, h⟩ := Resolved.bind_eq_ok.mp h
      cases h
      exact .inr ⟨by simpa using inside, path, located, rfl⟩

/-- A setting changes, and no variable does. -/
theorem inScope_of_writeSetting (h : s.writeSetting plan v = .ok t) (key : String)
    (scope : Scope) : t.inScope key scope = s.inScope key scope := by
  unfold writeSetting at h
  split at h
  · cases h
    cases scope <;> rfl
  · cases h

/-- Only the variable that is written changes, and only in the scope that is written to. -/
theorem inScope_of_writeVariable (h : s.writeVariable plan v scope = .ok t) {other : String}
    {scope' : Scope} (differs : other ≠ plan.key ∨ scope' ≠ scope) :
    t.inScope other scope' = s.inScope other scope' := by
  obtain ⟨places, new, -, -, rfl⟩ := writeVariable_cases h
  rw [inScope_setInScope, inScope_queue, if_neg]
  rintro ⟨same, same'⟩
  exact differs.elim (· same) (· same')

end Store

end GoalScript
