import GoalScript.Proofs.Writes

namespace GoalScript

def Surroundings.flags (s : Surroundings) : Bool × Bool × Option LogLevel :=
  (s.context.inEvent, s.store.memory.inEvent, s.context.logLevel)

/-- The module's functions leave the in-event flags and the log level alone. -/
def Module.Discreet (m : Module) : Prop :=
  ∀ function site s, ((m.call function site).run s).2.flags = s.flags

def Handle.Discreet (h : Handle) : Prop := ∀ entry ∈ h.registry.modules, entry.2.Discreet

/-- Writes lead from `s` to `t`: the in-event flag stays, and while it is up nothing is queued. -/
structure Store.Silent (s t : Store) : Prop where
  inEvent : t.memory.inEvent = s.memory.inEvent
  pending : s.memory.inEvent = true → t.memory.pending = s.memory.pending

namespace Store

theorem Silent.refl (s : Store) : s.Silent s := ⟨rfl, fun _ => rfl⟩

theorem Silent.trans {s t u : Store} (h : s.Silent t) (k : t.Silent u) : s.Silent u :=
  ⟨k.inEvent.trans h.inEvent, fun hi => (k.pending (h.inEvent.trans hi)).trans (h.pending hi)⟩

/-- Nothing is queued while the flag is up. -/
theorem silent_queue (s : Store) (v : Variable) (type : EventType) (value : Value) :
    s.Silent (s.queue v type value) := by
  unfold queue
  split
  · exact .refl s
  · rename_i hi
    exact ⟨rfl, fun h => absurd h hi⟩

theorem silent_setInScope (s : Store) (key : String) (v : Variable) (scope : Scope) :
    s.Silent (s.setInScope key v scope) := by
  cases scope <;> exact ⟨rfl, fun _ => rfl⟩

/-- All that writes consist of is silent. -/
theorem allows_silent : Allows Silent where
  refl := .refl
  trans := .trans
  queue := silent_queue
  setInScope := silent_setInScope
  setting _ _ _ := ⟨rfl, fun _ => rfl⟩

theorem silent_put {s t : Store} {expr : String} {v : Value} (h : s.put expr v = .ok t) :
    s.Silent t := allows_silent.put h

theorem silent_putShared {s t : Store} {expr : String} {v : Value}
    (h : s.putShared expr v = .ok t) : s.Silent t := allows_silent.putShared h

theorem silent_remove {s t : Store} {expr : String} (h : s.remove expr = .ok t) :
    s.Silent t := allows_silent.remove h

end Store

/-- What the modules of every registry may do to their surroundings. -/
structure Surroundings.Tame (s t : Surroundings) : Prop where
  context : t.context = s.context
  store : s.store.Silent t.store

def Call.Tame {α : Type} (c : Call α) : Prop :=
  ∀ (site : Site) (s : Surroundings), s.Tame ((c site).run s).2

theorem Builtin.tame_all : ∀ m ∈ all, ∀ function, (m.call function).Tame := by
  intro m hm function site s
  obtain ⟨context, store, -⟩ := within_all Store.allows_silent m hm function site s
  exact ⟨context, store⟩

theorem Call.Tame.flags {α : Type} {c : Call α} (h : c.Tame) (site : Site) (s : Surroundings) :
    ((c site).run s).2.flags = s.flags := by
  have k := h site s
  simp only [Surroundings.flags, k.context, k.store.inEvent]

/-- The modules that every registry starts with are discreet. -/
theorem Builtin.discreet_of_mem {m : Module} (h : m ∈ all) : m.Discreet :=
  fun function site s => (tame_all m h function).flags site s

/-- The registry that engines start with. -/
theorem Handle.discreet_withBuiltins (stamp : Nat) : Handle.Discreet ⟨.withBuiltins, stamp⟩ :=
  fun _ he => Builtin.discreet_of_mem (Registry.mem_withBuiltins he)

end GoalScript
