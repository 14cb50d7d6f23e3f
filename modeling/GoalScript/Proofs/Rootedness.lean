import GoalScript.Proofs.Invariants

namespace GoalScript

def Store.SameMode (s t : Store) : Prop := t.memory.buildMode = s.memory.buildMode

theorem Store.allows_sameMode : Store.Allows Store.SameMode where
  refl _ := rfl
  trans h k := k.trans h
  queue s v type value := by
    unfold queue
    split <;> rfl
  setInScope s key v scope := by cases scope <;> rfl
  setting _ _ _ := rfl

/-- The module's functions leave the mode of the memory alone, as all do that use the memory by its
operations only. -/
def Module.KeepsMode (m : Module) : Prop := m.Writes Store.SameMode

def Handle.KeepsMode (h : Handle) : Prop := ∀ entry ∈ h.registry.modules, entry.2.KeepsMode

theorem Builtin.keepsMode_of_mem {m : Module} (h : m ∈ all) : m.KeepsMode :=
  fun function site s => (within_all Store.allows_sameMode m h function site s).2.1

/-- The registry that engines start with. -/
theorem Handle.keepsMode_withBuiltins (stamp : Nat) : Handle.KeepsMode ⟨.withBuiltins, stamp⟩ :=
  fun _ he => Builtin.keepsMode_of_mem (Registry.mem_withBuiltins he)

structure World.Rooted (root : Nat × Handle × Bool) (w : World) : Prop where
  root : w.engine.root = root
  modules : w.engine.registry.KeepsMode

/-- The mode is all that a store has to do with what its engine is made with. -/
theorem World.Rooted.withStore {root : Nat × Handle × Bool} {w : World} {s : Store}
    (hw : w.Rooted root) (same : w.store.SameMode s) : (w.withStore s).Rooted root := by
  refine ⟨Eq.trans ?_ hw.root, hw.modules⟩
  simp only [Engine.root, World.withStore]
  rw [same]
  rfl

def rooted (root : Nat × Handle × Bool) : Invariant where
  Holds w := w.Rooted root
  Accepts _ := True
  Writes := Store.SameMode
  Attempts _ := True
  writes := Store.allows_sameMode
  settings _ := trivial
  modules h := h.modules
  of_same h _ same modules := ⟨same.trans h.root, modules⟩
  withStore h written := h.withStore written
  setSetting h _ _ _ := ⟨h.root, h.modules⟩
  attempts _ _ := trivial

end GoalScript
