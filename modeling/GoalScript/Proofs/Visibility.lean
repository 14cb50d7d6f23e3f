import GoalScript.Proofs.Names
import GoalScript.Proofs.Stacks
import Mathlib.Data.List.Induction

namespace GoalScript

/-- The stack has a variable of its own under the key, and has not set it. -/
def Memory.Hides (m : Memory) (key : String) : Prop :=
  ∃ x, m.vars.get? key = some x ∧ x.isSet = false

instance (m : Memory) (key : String) : Decidable (m.Hides key) :=
  decidable_of_iff ((m.vars.get? key).any (fun x => !x.isSet) = true)
    (by simp [Memory.Hides, Option.any_eq_true])

namespace Store

variable {s t : Store} {expr name key : String} {plan : Plan} {v : Value} {x : Variable}

def IsSetIn (s : Store) (key : String) (scope : Scope) : Prop :=
  ∃ x, s.inScope key scope = some x ∧ x.isSet = true

instance (s : Store) (key : String) (scope : Scope) : Decidable (s.IsSetIn key scope) :=
  decidable_of_iff ((s.inScope key scope).any Variable.isSet = true)
    (by simp [IsSetIn, Option.any_eq_true])

theorem hides_iff_of_own (own : s.inScope key .own = some x) :
    s.memory.Hides key ↔ x.isSet = false := by
  constructor
  · rintro ⟨y, found, unset⟩
    obtain rfl : x = y := Option.some.inj (own.symm.trans found)
    exact unset
  · intro unset
    exact ⟨x, own, unset⟩

theorem not_hides_of_none (own : s.inScope key .own = none) : ¬ s.memory.Hides key := by
  rintro ⟨x, found, -⟩
  cases own.symm.trans found

theorem hides_congr (same : t.inScope key .own = s.inScope key .own) :
    t.memory.Hides key ↔ s.memory.Hides key := by
  cases own : s.inScope key .own with
  | none => exact iff_of_false (not_hides_of_none (same.trans own)) (not_hides_of_none own)
  | some x => rw [hides_iff_of_own (same.trans own), hides_iff_of_own own]

def found? (s : Store) (key : String) : Option Variable := (s.lookup? key).filter Variable.isSet

theorem found?_of_own (own : s.inScope key .own = some x) (set : x.isSet = true) :
    s.found? key = some x := by
  simp [found?, lookup?_eq, own, Option.filter, set]

theorem found?_of_shared (own : s.inScope key .own = none)
    (shared : s.inScope key .shared = some x) (set : x.isSet = true) : s.found? key = some x := by
  simp [found?, lookup?_eq, own, shared, Option.filter, set]

/-- A variable that is hidden is not found. -/
theorem found?_of_hides (hides : s.memory.Hides key) : s.found? key = none := by
  obtain ⟨x, own, unset⟩ := hides
  have own : s.inScope key .own = some x := own
  simp [found?, lookup?_eq, own, Option.filter, unset]

theorem none_or_set_of_not_hides (h : ¬ s.memory.Hides key) :
    s.inScope key .own = none ∨ ∃ x, s.inScope key .own = some x ∧ x.isSet = true := by
  cases own : s.inScope key .own with
  | none => exact .inl rfl
  | some x =>
    rw [hides_iff_of_own own, Bool.not_eq_false] at h
    exact .inr ⟨x, rfl, h⟩

/-- A variable is found where it is set, unless the stack hides it. -/
theorem isSome_found?_iff (s : Store) (key : String) :
    (s.found? key).isSome = true ↔
      s.IsSetIn key .own ∨ s.IsSetIn key .shared ∧ ¬ s.memory.Hides key := by
  by_cases hides : s.memory.Hides key
  · rw [found?_of_hides hides]
    obtain ⟨x, own, unset⟩ := hides
    have own : s.inScope key .own = some x := own
    simp [IsSetIn, own, unset, hides_iff_of_own own]
  · rcases none_or_set_of_not_hides hides with own | ⟨x, own, set⟩
    · simp only [IsSetIn, own, hides, not_false_eq_true, and_true]
      cases shared : s.inScope key .shared with
      | none => simp [found?, lookup?_eq, own, shared]
      | some x => cases set : x.isSet <;> simp [found?, lookup?_eq, own, shared, Option.filter, set]
    · simp [found?_of_own own set, IsSetIn, own, set]

/-- A name is seen if a variable that is set is found under its key. -/
theorem contains_eq (h : plan.Names name) : s.contains name = (s.found? plan.key).isSome := by
  rw [contains, h.variableKey_eq, found?]
  cases s.lookup? plan.key with
  | none => rfl
  | some x => cases set : x.isSet <;> simp [Option.filter, set]

/-- A name stands for the variable that is found under its key, or for one that is not set. -/
theorem get_name (h : plan.Names name) :
    s.get name = .ok ((s.found? plan.key).getD (.absent plan.expr)) := by
  have nowhere : plan.parent? = none := by simp [Plan.parent?, h.whole]
  rw [get_eq h.parsed h.free, found?]
  cases (s.lookup? plan.key).filter Variable.isSet with
  | none => simp [absentRootBy, h.plain, h.whole, nowhere, Variable.absent]
  | some x => simp [navigateBy, h.plain, h.whole]

theorem isSet_found? (s : Store) (key expr : String) :
    ((s.found? key).getD (.absent expr)).isSet = (s.found? key).isSome := by
  rw [found?]
  cases found : (s.lookup? key).filter Variable.isSet with
  | none => rfl
  | some x => exact (Option.filter_eq_some_iff.mp found).2

/-- What the names of the clock and of the settings stand for. -/
theorem getValue_reserved (parsed : Plan.parse name = .ok plan) (whole : plan.segments = [])
    (plain : plan.arithmetic = none) (reserved : plan.IsReserved) (h : s.getValue name = .ok v) :
    v = .date s.now := by
  rw [getValue, get, parsed] at h
  change Except.map _ (s.resolvePlanBy _ plan) = _ at h
  unfold resolvePlanBy at h
  change Except.map _ (if (plan.key == "now" || plan.key == "nowutc") = true then _ else
    if (plan.key == "settings") = true then _ else _) = _ at h
  rcases reserved with now | utc | settings
  · simpa [now, navigateBy, whole, plain, Except.map] using h.symm
  · simpa [utc, navigateBy, whole, plain, Except.map] using h.symm
  · simp [settings, whole, settingKey?, Except.map] at h

/-- A name that stands for neither nothing nor a time stands for a variable that is set. -/
theorem set_of_getValue (parsed : Plan.parse name = .ok plan) (whole : plan.segments = [])
    (plain : plan.arithmetic = none) (h : s.getValue name = .ok v) (some : v ≠ .null)
    (timeless : ∀ t, v ≠ .date t) :
    ¬ plan.IsReserved ∧ ∃ x, s.lookup? plan.key = .some x ∧ x.isSet = true ∧ x.value = v := by
  have free : ¬ plan.IsReserved := fun reserved =>
    timeless _ (getValue_reserved parsed whole plain reserved h)
  rw [getValue, get_name ⟨parsed, whole, plain, free⟩] at h
  refine ⟨free, ?_⟩
  cases found : s.found? plan.key with
  | none =>
    rw [found] at h
    cases h
    exact absurd rfl some
  | some x =>
    rw [found] at h
    cases h
    obtain ⟨there, set⟩ := Option.filter_eq_some_iff.mp found
    exact ⟨x, there, set, rfl⟩

/-- A name can be written to among the shared variables, and nothing else changes. -/
theorem putShared_name (h : plan.Names name) (v : Value) :
    ∃ t x, s.putShared name v = .ok t ∧ x.isSet = true ∧ x.value = v.structured ∧
      t.inScope plan.key .own = s.inScope plan.key .own ∧
      t.inScope plan.key .shared = some x := by
  have written : s.putShared name v = s.writeVariable plan v.structured .shared :=
    writeTo_of_free h.parsed h.plain h.free
  obtain ⟨t, wrote⟩ : ∃ t, s.writeVariable plan v.structured .shared = .ok t := by
    rw [writeVariable, writeVariableBy]
    simp only [h.whole, List.isEmpty_nil, if_true]
    exact ⟨_, rfl⟩
  obtain ⟨places, new, located, assigned, rfl⟩ := writeVariable_cases wrote
  refine ⟨_, s.written plan .shared new, written.trans wrote, rfl, ?_, ?_, ?_⟩
  · rw [Store.places, placesBy, h.whole] at located
    cases located
    cases assigned
    rfl
  · simp [inScope_setInScope]
  · simp [inScope_setInScope]

end Store

namespace Operation

variable {s : Store} {key : String}

/-- The operation leaves the stack with a variable of its own that is not set: it removes one as a
whole, or subscribes to one that is nowhere. -/
def Hides (s : Store) (key : String) : Operation → Prop
  | .remove expr => s.IsSetIn key .own ∧
      ∃ plan, Plan.parse expr = .ok plan ∧ plan.key = key ∧ plan.segments = []
  | .subscribe expr _ => (Store.rootOf expr).2 = key ∧ s.lookup? key = none
  | _ => False

/-- The operation leaves the stack with no such variable: it writes to it, or drops all. -/
def Reveals (s : Store) (key : String) : Operation → Prop
  | .put expr value => (s.put expr value).isOk = true ∧ (Store.rootOf expr).2 = key
  | .reset => True
  | _ => False

end Operation

namespace Store

variable {s t : Store} {expr key : String} {plan : Plan} {v : Value} {x : Variable}

/-- What is stored where an expression is written hides a variable if it is not set and the stack's
own. -/
theorem hides_setInScope {q : Store} (same : ∀ key scope, q.inScope key scope = s.inScope key scope)
    (expr : String) (x : Variable) :
    (q.setInScope (rootOf expr).2 x (s.scopeOf expr)).memory.Hides key ↔
      if key = (rootOf expr).2 then s.scopeOf expr = .own ∧ x.isSet = false
      else s.memory.Hides key := by
  split
  · rename_i here
    subst here
    cases scope : s.scopeOf expr with
    | own =>
      rw [hides_iff_of_own (by rw [inScope_setInScope, if_pos ⟨rfl, rfl⟩])]
      exact (and_iff_right rfl).symm
    | shared =>
      -- Where the shared variable is written to, the stack has none of its own.
      rw [scopeOf_eq] at scope
      have none : s.inScope (rootOf expr).2 .own = none := by
        cases own : s.inScope (rootOf expr).2 .own with
        | none => rfl
        | some x => simp [own] at scope
      refine iff_of_false (not_hides_of_none ?_) (fun both => Scope.noConfusion both.1)
      simp [inScope_setInScope, same, none]
  · rename_i other
    exact hides_congr (by simp [inScope_setInScope, same, other])

/-- The variable that an expression is written to, when it is set, is not hidden. -/
theorem own_iff_of_set (set : (s.inScope (rootOf expr).2 (s.scopeOf expr)).filter Variable.isSet =
    some x) : ¬ s.memory.Hides (rootOf expr).2 ∧
      (s.IsSetIn (rootOf expr).2 .own ↔ s.scopeOf expr = .own) := by
  obtain ⟨here, set⟩ := Option.filter_eq_some_iff.mp set
  rw [scopeOf_eq] at here ⊢
  cases own : s.inScope (rootOf expr).2 .own with
  | none =>
    refine ⟨not_hides_of_none own, ?_⟩
    cases shared : s.inScope (rootOf expr).2 .shared with
    | none => simp [own, shared] at here
    | some y => simp [IsSetIn, own]
  | some y =>
    obtain rfl : y = x := by simpa [own] using here
    rw [hides_iff_of_own own]
    simp [IsSetIn, own, set]

/-- A write to a variable leaves none that hides it. -/
theorem hides_of_put (variable' : key ≠ "settings") (h : s.put expr v = .ok t) :
    t.memory.Hides key ↔ s.memory.Hides key ∧ key ≠ (rootOf expr).2 := by
  obtain ⟨plan, parsed, -, ⟨settings, wrote⟩ | ⟨-, wrote⟩⟩ := writeTo_cases h
  · rw [hides_congr (inScope_of_writeSetting wrote key .own), rootOf_of_parse parsed]
    refine (and_iff_left ?_).symm
    rw [settings]
    exact variable'
  · obtain ⟨places, new, -, -, rfl⟩ := writeVariable_cases wrote
    have root : plan.key = (rootOf expr).2 := by rw [rootOf_of_parse parsed]
    rw [root, hides_setInScope (inScope_queue s _ _ _)]
    by_cases same : key = (rootOf expr).2
    · simp [same, written]
    · simp [same]

theorem inScope_own_of_putShared (h : s.putShared expr v = .ok t) :
    t.inScope key .own = s.inScope key .own := by
  obtain ⟨plan, -, -, ⟨-, wrote⟩ | ⟨-, wrote⟩⟩ := writeTo_cases h
  · exact inScope_of_writeSetting wrote key .own
  · exact inScope_of_writeVariable wrote (.inr Scope.noConfusion)

/-- A removal of a variable as a whole cannot fail. -/
theorem remove_isOk (parsed : Plan.parse expr = .ok plan) (whole : plan.segments = []) :
    ∃ t, s.remove expr = .ok t := by
  rw [remove, removeBy, parsed]
  dsimp only [bind, Except.bind]
  split
  · exact ⟨_, rfl⟩
  · rw [whole]
    exact ⟨_, rfl⟩

/-- A removal of a variable as a whole hides it, if it was the stack's own. -/
theorem hides_of_remove (h : s.remove expr = .ok t) :
    t.memory.Hides key ↔ (s.IsSetIn key .own ∧
      ∃ plan, Plan.parse expr = .ok plan ∧ plan.key = key ∧ plan.segments = []) ∨
        s.memory.Hides key := by
  obtain ⟨plan, parsed, removed⟩ := remove_cases h
  have root : (rootOf expr).2 = plan.key := by rw [rootOf_of_parse parsed]
  have named : (∃ plan, Plan.parse expr = .ok plan ∧ plan.key = key ∧ plan.segments = []) ↔
      plan.key = key ∧ plan.segments = [] := by
    constructor
    · rintro ⟨plan', parsed', named⟩
      obtain rfl : plan = plan' := Except.ok.inj (parsed.symm.trans parsed')
      exact named
    · intro named
      exact ⟨plan, parsed, named⟩
  rw [named, ← root]
  rw [← root] at removed
  rcases removed with ⟨absent, rfl⟩ | ⟨x, found, removed⟩
  · -- What is set in the scope of the stack is what would have been removed.
    refine (or_iff_right ?_).symm
    rintro ⟨⟨x, own, set⟩, rfl, -⟩
    rw [scopeOf_eq] at absent
    simp [own, set, Option.filter] at absent
  · obtain ⟨unhidden, own⟩ := own_iff_of_set found
    rcases removed with ⟨whole, rfl⟩ | ⟨inside, path, -, rfl⟩
    · rw [hides_setInScope (inScope_queue s _ _ _)]
      by_cases same : key = (rootOf expr).2
      · subst same
        simp [own, unhidden, List.isEmpty_iff.mp whole, Variable.absent]
      · simp [same, Ne.symm same]
    · rw [hides_setInScope (inScope_queue s _ _ _)]
      have inside : plan.segments ≠ [] := by simpa using inside
      by_cases same : key = (rootOf expr).2
      · subst same
        simp [unhidden, inside]
      · simp [same, inside]

/-- A subscription to a variable that is nowhere hides it. -/
theorem hides_subscribe (s : Store) (expr : String) (sub : Subscription) :
    (s.subscribe expr sub).memory.Hides key ↔
      ((rootOf expr).2 = key ∧ s.lookup? key = none) ∨ s.memory.Hides key := by
  unfold subscribe
  dsimp only
  rw [hides_setInScope fun key scope => rfl]
  by_cases same : key = (rootOf expr).2
  · subst same
    simp only [if_true, true_and]
    rw [inScope_scopeOf, lookup?_eq, scopeOf_eq]
    cases own : s.inScope (rootOf expr).2 .own with
    | some x => simp [hides_iff_of_own own]
    | none =>
      have unhidden := not_hides_of_none own
      cases shared : s.inScope (rootOf expr).2 .shared with
      | some x => simp [unhidden]
      | none => simp [unhidden, Variable.absent]
  · simp [same, Ne.symm same]

/-- Dropping subscriptions hides nothing, and reveals nothing. -/
theorem hides_unsubscribe (s : Store) (expr goalName : String) (type : Option EventType) :
    (s.unsubscribe expr goalName type).memory.Hides key ↔ s.memory.Hides key := by
  rw [unsubscribe]
  dsimp only
  cases here : s.inScope (rootOf expr).2 (s.scopeOf expr) with
  | none => rfl
  | some x =>
    dsimp only
    rw [hides_setInScope fun key scope => rfl]
    by_cases same : key = (rootOf expr).2
    · subst same
      rw [inScope_scopeOf, lookup?_eq] at here
      rw [scopeOf_eq]
      cases own : s.inScope (rootOf expr).2 .own with
      | some y =>
        obtain rfl : y = x := by simpa [own] using here
        simp [hides_iff_of_own own]
      | none =>
        have shared : s.inScope (rootOf expr).2 .shared = some x := by simpa [own] using here
        simp [shared, not_hides_of_none own]
    · simp [same]

/-- What an operation does to the hiding of a variable. -/
theorem hides_operate (operation : Operation) (variable' : key ≠ "settings") :
    (s.operate operation).2.memory.Hides key ↔
      operation.Hides s key ∨ s.memory.Hides key ∧ ¬ operation.Reveals s key := by
  cases operation with
  | put expr value =>
    simp only [operate, Operation.Hides, Operation.Reveals, false_or]
    cases h : s.put expr value with
    | error e => simp [Except.toOption, Except.isOk, Except.toBool]
    | ok t =>
      have revealed := hides_of_put variable' h
      simp only [Except.toOption, Option.getD_some, Except.isOk, Except.toBool, true_and]
      rw [revealed, ne_comm]
  | putShared expr value =>
    simp only [operate, Operation.Hides, Operation.Reveals, false_or, not_false_eq_true, and_true]
    cases h : s.putShared expr value with
    | error e => rfl
    | ok t => exact hides_congr (inScope_own_of_putShared h)
  | remove expr =>
    simp only [operate, Operation.Hides, Operation.Reveals, not_false_eq_true, and_true]
    cases h : s.remove expr with
    | ok t => exact hides_of_remove h
    | error e =>
      refine (or_iff_right ?_).symm
      rintro ⟨-, plan, parsed, -, whole⟩
      obtain ⟨t, removed⟩ := remove_isOk (s := s) parsed whole
      cases h.symm.trans removed
  | subscribe expr sub =>
    simp only [operate, Operation.Hides, Operation.Reveals, not_false_eq_true, and_true]
    exact hides_subscribe s expr sub
  | unsubscribe expr goalName type =>
    simp only [operate, Operation.Hides, Operation.Reveals, false_or, not_false_eq_true, and_true]
    exact hides_unsubscribe s expr goalName type
  | setInEvent | takePending =>
    simp only [Operation.Hides, Operation.Reveals, false_or, not_false_eq_true, and_true]
    rfl
  | reset =>
    simp only [Operation.Hides, Operation.Reveals, not_true_eq_false, and_false, or_false,
      iff_false]
    exact not_hides_of_none rfl

end Store

namespace Stacks

variable {w : Stacks} {uses : List Use} {i : Nat} {key : String}

/-- Some use of the stack has hidden the variable, and no later one has revealed it. -/
def HiddenBy (w : Stacks) (uses : List Use) (i : Nat) (key : String) : Prop :=
  ∃ before u after, uses = before ++ u :: after ∧ u.stack = i ∧
    u.operation.Hides ((w.useAll before).used u) key ∧
    ∀ between later rest, after = between ++ later :: rest → later.stack = i →
      ¬ later.operation.Reveals ((w.useAll (before ++ u :: between)).used later) key

/-- One more use hides the variable, or leaves it hidden. -/
theorem hiddenBy_concat (w : Stacks) (uses : List Use) (u : Use) (i : Nat) (key : String) :
    w.HiddenBy (uses ++ [u]) i key ↔
      u.stack = i ∧ u.operation.Hides ((w.useAll uses).used u) key ∨
        w.HiddenBy uses i key ∧
          (u.stack = i → ¬ u.operation.Reveals ((w.useAll uses).used u) key) := by
  constructor
  · rintro ⟨before, first, after, split, mine, hides, unrevealed⟩
    rcases List.eq_nil_or_concat after with rfl | ⟨after, last, rfl⟩
    · obtain ⟨rfl, same⟩ := List.append_inj' split rfl
      obtain rfl := List.singleton_inj.mp same
      exact .inl ⟨mine, hides⟩
    · have split : uses ++ [u] = (before ++ first :: after) ++ [last] := by simpa using split
      obtain ⟨rfl, same⟩ := List.append_inj' split rfl
      obtain rfl := List.singleton_inj.mp same
      refine .inr ⟨⟨before, first, after, rfl, mine, hides, ?_⟩, unrevealed after u [] (by simp)⟩
      intro between later rest within
      exact unrevealed between later (rest ++ [u]) (by simp [within])
  · rintro (⟨mine, hides⟩ | ⟨⟨before, first, after, rfl, mine, hides, unrevealed⟩, last⟩)
    · refine ⟨uses, u, [], rfl, mine, hides, ?_⟩
      intro between later rest within
      simp at within
    · refine ⟨before, first, after ++ [u], by simp, mine, hides, ?_⟩
      intro between later rest within
      rcases List.eq_nil_or_concat rest with rfl | ⟨rest, final, rfl⟩
      · obtain ⟨rfl, same⟩ := List.append_inj' within rfl
        obtain rfl := List.singleton_inj.mp same
        exact last
      · have within : after ++ [u] = (between ++ later :: rest) ++ [final] := by
          simpa using within
        exact unrevealed between later rest (List.append_inj' within rfl).1

/-- A stack that hides nothing at first hides what its history has hidden. -/
theorem hides_useAll (variable' : key ≠ "settings") (start : ¬ (w.memories i).Hides key)
    (uses : List Use) : ((w.useAll uses).memories i).Hides key ↔ w.HiddenBy uses i key := by
  induction uses using List.reverseRecOn with
  | nil =>
    refine iff_of_false start ?_
    rintro ⟨before, u, after, split, -⟩
    simp at split
  | append_singleton uses u ih =>
    rw [useAll_concat, hiddenBy_concat, ← ih]
    by_cases mine : u.stack = i
    · subst mine
      rw [memories_use_self, Store.hides_operate u.operation variable']
      simp [used, store]
    · rw [memories_use_of_ne mine]
      simp [mine]

/-- However stacks that share variables have been used: a stack sees the variable of a name if it
has set one of its own, or if one is set among those shared and the stack does not hide it; and a
name stands for what the stack sees. A stack hides a variable from when it removes its own, or
subscribes to it before it is anywhere, until it next writes to it or is reset. A shared variable
that is written to is then read by that name, unless the stack has set one of its own or hides
it. -/
theorem names_are_seen_unless_hidden (w : Stacks) (uses : List Use) (i : Nat)
    (now : Calendar.Instant) (name : String) (plan : Plan) (h : plan.Names name)
    (start : ¬ (w.memories i).Hides plan.key) :
    let s := (w.useAll uses).store i now
    (s.contains name = true ↔
      s.IsSetIn plan.key .own ∨ s.IsSetIn plan.key .shared ∧ ¬ s.memory.Hides plan.key) ∧
    (∃ x, s.get name = .ok x ∧ (x.isSet = true ↔ s.contains name = true)) ∧
    (s.memory.Hides plan.key ↔ w.HiddenBy uses i plan.key) ∧
    ∀ v, ∃ t, s.putShared name v = .ok t ∧
      (∀ x, s.inScope plan.key .own = some x → x.isSet = true →
        t.contains name = true ∧ t.get name = .ok x) ∧
      (¬ s.IsSetIn plan.key .own → ¬ s.memory.Hides plan.key →
        t.contains name = true ∧ t.getValue name = .ok v.structured) ∧
      (s.memory.Hides plan.key → t.contains name = false ∧ t.getValue name = .ok .null) := by
  intro s
  have variable' : plan.key ≠ "settings" := fun settings => h.free (.inr (.inr settings))
  refine ⟨?_, ⟨_, Store.get_name h, ?_⟩, hides_useAll variable' start uses, fun v => ?_⟩
  · rw [Store.contains_eq h]
    exact s.isSome_found?_iff plan.key
  · rw [Store.contains_eq h, Store.isSet_found?]
  · obtain ⟨t, x, wrote, set, value, own, shared⟩ := s.putShared_name h v
    refine ⟨t, wrote, fun y mine set' => ?_, fun unset unhidden => ?_, fun hidden => ?_⟩
    · have found := Store.found?_of_own (own.trans mine) set'
      rw [Store.contains_eq h, Store.get_name h, found]
      exact ⟨rfl, rfl⟩
    · have none : s.inScope plan.key .own = none := by
        rcases Store.none_or_set_of_not_hides unhidden with none | mine
        · exact none
        · exact absurd mine unset
      have found := Store.found?_of_shared (own.trans none) shared set
      rw [Store.contains_eq h, Store.getValue, Store.get_name h, found, ← value]
      exact ⟨rfl, rfl⟩
    · have found := Store.found?_of_hides ((Store.hides_congr own).mpr hidden)
      rw [Store.contains_eq h, Store.getValue, Store.get_name h, found]
      exact ⟨rfl, rfl⟩

def subscribedFirst : List Use :=
  [{ stack := 0, now := ⟨0, 0⟩,
     operation := .subscribe "n" { eventType := .onCreate, goalName := "Greet" } },
   { stack := 1, now := ⟨0, 0⟩, operation := .putShared "n" (.bool true) }]

theorem names_n : ∃ plan, Plan.Names "n" plan ∧ plan.key = "n" := by
  let plan : Plan := { expr := "n", root := "n", segments := [], arithmetic := none }
  have parsed : Plan.parse "n" = .ok plan := by with_unfolding_all rfl
  exact ⟨plan, ⟨parsed, rfl, rfl, by decide +kernel⟩, by decide +kernel⟩

/-- The stack that has not subscribed sees what it has set. -/
theorem names_are_seen_unless_hidden_set :
    ((useAll {} subscribedFirst).store 1 ⟨0, 0⟩).contains "n" = true := by
  obtain ⟨plan, names, key⟩ := names_n
  have start : ¬ (memories {} 1).Hides plan.key := by
    rw [key]
    decide +kernel
  have seen := (names_are_seen_unless_hidden {} subscribedFirst 1 ⟨0, 0⟩ "n" plan names start).1
  rw [key] at seen
  apply seen.mpr
  right
  constructor <;> decide +kernel

/-- A stack that has subscribed to a variable before it was anywhere does not see that it has been
set for all. -/
theorem subscriptions_hide_shared_variables :
    let s := (useAll {} subscribedFirst).store 0 ⟨0, 0⟩
    s.IsSetIn "n" .shared ∧ s.contains "n" = false ∧
      ∃ x, s.get "n" = .ok x ∧ x.isSet = false ∧ x.value = .null := by
  intro s
  obtain ⟨plan, names, key⟩ := names_n
  have found : s.found? plan.key = none := by
    rw [key]
    exact Store.found?_of_hides (by decide +kernel)
  have seen : s.contains "n" = false := by
    rw [Store.contains_eq names, found]
    rfl
  have stands : s.get "n" = .ok (.absent plan.expr) := by
    rw [Store.get_name names, found]
    rfl
  exact ⟨by decide +kernel, seen, _, stands, rfl, rfl⟩

end Stacks

end GoalScript
