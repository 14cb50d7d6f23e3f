import GoalScript.Proofs.Dependence
import GoalScript.Proofs.Visibility

namespace GoalScript

namespace Operation

/-- The operation is about the variable, in whichever scope it is found. -/
def IsAbout (key : String) : Operation → Prop
  | .put expr _ => (Store.rootOf expr).2 = key
  | .remove expr => (Store.rootOf expr).2 = key
  | .subscribe expr _ => (Store.rootOf expr).2 = key
  | .unsubscribe expr _ _ => (Store.rootOf expr).2 = key
  | _ => False

/-- The operation writes to the shared variable: as such, or because the stack has none of its
own. -/
def WritesShared (s : Store) (key : String) : Operation → Prop
  | .putShared expr _ => (Store.rootOf expr).2 = key
  | operation => operation.IsAbout key ∧ s.inScope key .own = none ∧
      (s.inScope key .shared).isSome = true

end Operation

namespace Store

variable {s t : Store} {expr key : String} {plan : Plan} {v : Value} {x : Variable}

/-- A stack writes to a shared variable if it has none of its own under the key. -/
theorem scopeOf_eq_shared_iff (s : Store) (expr : String) :
    s.scopeOf expr = .shared ↔ s.inScope (rootOf expr).2 .own = none ∧
      (s.inScope (rootOf expr).2 .shared).isSome = true := by
  rw [scopeOf_eq, Option.isSome_iff_ne_none]
  simp

/-- What an operation stores where it finds a variable leaves the shared one alone, unless that is
what it finds. -/
theorem inScope_shared_setInScope {q : Store}
    (same : ∀ key scope, q.inScope key scope = s.inScope key scope)
    (spared : ¬ ((rootOf expr).2 = key ∧ s.inScope key .own = none ∧
      (s.inScope key .shared).isSome = true)) (x : Variable) :
    (q.setInScope (rootOf expr).2 x (s.scopeOf expr)).inScope key .shared =
      s.inScope key .shared := by
  rw [inScope_setInScope, same, if_neg]
  rintro ⟨rfl, shared⟩
  exact spared ⟨rfl, (s.scopeOf_eq_shared_iff expr).mp shared.symm⟩

theorem inScope_shared_of_writeTo {scope : Scope} (h : s.writeTo expr v scope = .ok t)
    (spared : ¬ ((rootOf expr).2 = key ∧ scope = .shared)) :
    t.inScope key .shared = s.inScope key .shared := by
  obtain ⟨plan, parsed, -, ⟨-, wrote⟩ | ⟨-, wrote⟩⟩ := writeTo_cases h
  · exact inScope_of_writeSetting wrote key .shared
  · rw [rootOf_of_parse parsed, not_and_or] at spared
    exact inScope_of_writeVariable wrote (spared.imp Ne.symm Ne.symm)

/-- A shared variable stays as it is under every operation that does not write to it. -/
theorem inScope_shared_operate {operation : Operation} (spared : ¬ operation.WritesShared s key) :
    (s.operate operation).2.inScope key .shared = s.inScope key .shared := by
  cases operation with
  | put expr value =>
    simp only [operate]
    cases h : s.put expr value with
    | error e => rfl
    | ok t =>
      refine inScope_shared_of_writeTo h fun both => spared ⟨both.1, ?_⟩
      rw [← both.1]
      exact (s.scopeOf_eq_shared_iff expr).mp both.2
  | putShared expr value =>
    simp only [operate]
    cases h : s.putShared expr value with
    | error e => rfl
    | ok t => exact inScope_shared_of_writeTo h fun both => spared both.1
  | remove expr =>
    simp only [operate]
    cases h : s.remove expr with
    | error e => rfl
    | ok t =>
      obtain ⟨plan, parsed, removed⟩ := remove_cases h
      have root : plan.key = (rootOf expr).2 := by rw [rootOf_of_parse parsed]
      rw [root] at removed
      rcases removed with ⟨-, rfl⟩ | ⟨x, -, ⟨-, rfl⟩ | ⟨-, path, -, rfl⟩⟩
      · rfl
      · exact inScope_shared_setInScope (inScope_queue s _ _ _) spared _
      · exact inScope_shared_setInScope (inScope_queue s _ _ _) spared _
  | subscribe expr sub => exact inScope_shared_setInScope (fun _ _ => rfl) spared _
  | unsubscribe expr goalName type =>
    simp only [operate, unsubscribe]
    split
    · rfl
    · exact inScope_shared_setInScope (fun _ _ => rfl) spared _
  | setInEvent | takePending | reset => rfl

/-- What a write to a variable has stored is what the stack then reads, from the scope that it has
been written to; in the other scope nothing changes. -/
theorem written_of_put (h : s.put expr v = .ok t) (parsed : Plan.parse expr = .ok plan)
    (variable' : plan.key ≠ "settings") :
    ∃ places x, s.places plan = .ok places ∧ x.isSet = true ∧
      Value.assign plan.expr v.structured places (s.current plan.key (s.scopeOf expr)) =
        .ok x.value ∧
      t.inScope plan.key (s.scopeOf expr) = some x ∧ t.lookup? plan.key = some x ∧
      ∀ scope, scope ≠ s.scopeOf expr → t.inScope plan.key scope = s.inScope plan.key scope := by
  obtain ⟨-, ⟨settings, -⟩ | ⟨-, wrote⟩⟩ := writeTo_of_parse parsed h
  · exact absurd settings variable'
  · have others (scope : Scope) (other : scope ≠ s.scopeOf expr) :
        t.inScope plan.key scope = s.inScope plan.key scope :=
      inScope_of_writeVariable wrote (.inr other)
    obtain ⟨places, new, located, assigned, rfl⟩ := writeVariable_cases wrote
    refine ⟨places, s.written plan (s.scopeOf expr) new, located, rfl, assigned, ?_, ?_, others⟩
    · rw [inScope_setInScope, if_pos ⟨rfl, rfl⟩]
    · have found := s.lookup?_setInScope_scopeOf expr (s.written plan (s.scopeOf expr) new)
        (s.written plan (s.scopeOf expr) new) (s.writeEvent plan.key (s.scopeOf expr)) new
      rwa [rootOf_of_parse parsed] at found

end Store

namespace Stacks

variable {w : Stacks} {uses : List Use} {j : Nat} {key : String}

def WrittenBy (w : Stacks) (uses : List Use) (key : String) : Prop :=
  ∃ before u after, uses = before ++ u :: after ∧
    u.operation.WritesShared ((w.useAll before).used u) key

/-- What is done with other stacks leaves what a stack has of its own. -/
theorem memories_useAll (others : ∀ u ∈ uses, u.stack ≠ j) :
    (w.useAll uses).memories j = w.memories j := by
  induction uses using List.reverseRecOn with
  | nil => rfl
  | append_singleton uses u ih =>
    rw [useAll_concat, memories_use_of_ne (others u (by simp))]
    exact ih fun u member => others u (List.mem_append_left _ member)

/-- A shared variable that has changed has been written to. -/
theorem writtenBy_of_changed (changed : (w.useAll uses).shared.vars.get? key ≠
    w.shared.vars.get? key) : w.WrittenBy uses key := by
  induction uses using List.reverseRecOn with
  | nil => exact absurd rfl changed
  | append_singleton uses u ih =>
    by_cases writes : u.operation.WritesShared ((w.useAll uses).used u) key
    · exact ⟨uses, u, [], rfl, writes⟩
    · have spared := Store.inScope_shared_operate writes
      rw [useAll_concat] at changed
      obtain ⟨before, first, after, split, wrote⟩ := ih fun same => changed (spared.trans same)
      exact ⟨before, first, after ++ [u], by simp [split], wrote⟩

/-- What a stack finds under a key changes by the uses of others only if the stack has nothing of
its own there and one of them has written to what is shared. -/
theorem writtenBy_of_lookup? {now : Calendar.Instant} (others : ∀ u ∈ uses, u.stack ≠ j)
    (changed : ((w.useAll uses).store j now).lookup? key ≠ (w.store j now).lookup? key) :
    (w.store j now).inScope key .own = none ∧ w.WrittenBy uses key := by
  have own : ((w.useAll uses).store j now).inScope key .own = (w.store j now).inScope key .own := by
    change ((w.useAll uses).memories j).vars.get? key = (w.memories j).vars.get? key
    rw [memories_useAll others]
  rw [Store.lookup?_eq, Store.lookup?_eq, own] at changed
  cases mine : (w.store j now).inScope key .own with
  | some x =>
    rw [mine] at changed
    exact absurd rfl changed
  | none =>
    rw [mine, Option.none_or, Option.none_or] at changed
    exact ⟨rfl, writtenBy_of_changed changed⟩

/-- However the other stacks are used: what a stack has of its own stays as it is. What it finds
under a key changes only if it has no variable of its own there and one of them has written to the
shared one; and so does what it reads by an expression, for some key that the expression consults,
unless the expression consults the settings and these have changed. What the stack itself then
writes to a variable it reads from the scope that it has been written to. -/
theorem stacks_are_isolated (w : Stacks) (uses : List Use) (j : Nat) (now : Calendar.Instant)
    (others : ∀ u ∈ uses, u.stack ≠ j) :
    let s := w.store j now
    let t := (w.useAll uses).store j now
    t.memory = s.memory ∧
    (∀ key, t.lookup? key ≠ s.lookup? key → s.inScope key .own = none ∧ w.WrittenBy uses key) ∧
    (∀ expr, t.get expr ≠ s.get expr →
      (∃ key, Plan.Consults expr key ∧ s.inScope key .own = none ∧ w.WrittenBy uses key) ∨
        Plan.Consults expr "settings" ∧ t.shared.settings ≠ s.shared.settings) ∧
    ∀ expr value u plan, t.put expr value = .ok u → Plan.parse expr = .ok plan →
      plan.key ≠ "settings" → ∃ places x, t.places plan = .ok places ∧ x.isSet = true ∧
        Value.assign plan.expr value.structured places (t.current plan.key (t.scopeOf expr)) =
          .ok x.value ∧
        u.inScope plan.key (t.scopeOf expr) = some x ∧ u.lookup? plan.key = some x ∧
        ∀ scope, scope ≠ t.scopeOf expr → u.inScope plan.key scope = t.inScope plan.key scope := by
  intro s t
  have mine : t.memory = s.memory := memories_useAll others
  refine ⟨mine, fun key => writtenBy_of_lookup? others, fun expr changed => ?_,
    fun expr value u plan wrote parsed variable' => Store.written_of_put wrote parsed variable'⟩
  by_contra unwritten
  rw [not_or] at unwritten
  obtain ⟨unwritten, unset⟩ := unwritten
  refine changed (Store.get_congr ⟨by rw [mine], rfl, fun consults => ?_, fun key consults => ?_⟩)
  · by_contra differs
    exact unset ⟨consults, differs⟩
  · by_contra differs
    exact unwritten ⟨key, consults, writtenBy_of_lookup? others differs⟩

/-- A stack that has set a variable of its own, and one that then writes and removes the shared one
of that name. -/
theorem stacks_are_isolated_own :
    let w := useAll {} [⟨1, ⟨0, 0⟩, .put "n" (.bool true)⟩]
    let uses : List Use := [⟨0, ⟨0, 0⟩, .putShared "n" (.bool false)⟩,
      ⟨0, ⟨0, 0⟩, .put "N" .null⟩, ⟨0, ⟨0, 0⟩, .remove "n"⟩]
    ((w.useAll uses).store 1 ⟨0, 0⟩).lookup? "n" = (w.store 1 ⟨0, 0⟩).lookup? "n" := by
  intro w uses
  have isolated := stacks_are_isolated w uses 1 ⟨0, 0⟩ (by simp [uses])
  by_contra changed
  obtain ⟨x, own, -⟩ : (w.store 1 ⟨0, 0⟩).IsSetIn "n" .own := by decide +kernel
  cases own.symm.trans (isolated.2.1 "n" changed).1

end Stacks

end GoalScript
