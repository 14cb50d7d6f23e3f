import GoalScript.Proofs.Passage
import GoalScript.Proofs.Tables

namespace GoalScript

namespace Settings

/-- A setting is found under its owner and key, letter case aside. -/
theorem get?_set (s : Settings) (owner key owner' key' : String) (value : Json) :
    (s.set owner key value).get? owner' key' =
      if Text.lowercase owner' = Text.lowercase owner ∧ Text.lowercase key' = Text.lowercase key
      then some value else s.get? owner' key' := by
  simp only [get?, ofOwner, set, Table.get?_insert]
  by_cases ho : Text.lowercase owner' = Text.lowercase owner
  · by_cases hk : Text.lowercase key' = Text.lowercase key
    · simp [ho, hk, Table.get?_insert]
    · simp [ho, hk, Table.get?_insert]
  · simp [ho]

theorem isSome_get?_set (s : Settings) (owner key : String) (value : Json) :
    ((s.set owner key value).get? owner key).isSome = true := by
  rw [get?_set, if_pos ⟨rfl, rfl⟩]
  rfl

/-- Nothing that is set goes away when something is set. -/
theorem isSome_set {s : Settings} {owner' key' : String} (owner key : String) (value : Json)
    (h : (s.get? owner' key').isSome = true) :
    ((s.set owner key value).get? owner' key').isSome = true := by
  rw [get?_set]
  split
  · rfl
  · exact h

end Settings

def Store.Remembers (s t : Store) : Prop :=
  ∀ key, s.isRecorded key = true → t.isRecorded key = true

/-- Writes of expressions go to the settings of the app and not to the ledger. -/
theorem Store.allows_remembers : Allows Remembers where
  refl _ _ hk := hk
  trans h k key hk := k key (h key hk)
  queue s v type value := by
    unfold queue
    split <;> exact fun _ hk => hk
  setInScope s key v scope := by cases scope <;> exact fun _ hk => hk
  setting s name value key hk := Settings.isSome_set _ _ _ hk

/-- The module's functions take nothing out of the ledger. -/
def Module.Faithful (m : Module) : Prop :=
  ∀ function site (s : Surroundings), s.store.Remembers ((m.call function site).run s).2.store

def Handle.Faithful (h : Handle) : Prop := ∀ entry ∈ h.registry.modules, entry.2.Faithful

theorem Builtin.faithful_of_mem {m : Module} (h : m ∈ all) : m.Faithful :=
  fun function site s => (within_all Store.allows_remembers m h function site s).2.1

/-- The registry that engines start with. -/
theorem Handle.faithful_withBuiltins (stamp : Nat) : Handle.Faithful ⟨.withBuiltins, stamp⟩ :=
  fun _ he => Builtin.faithful_of_mem (Registry.mem_withBuiltins he)

namespace Run

variable {site : Site}

/-- A step that runs once is entered in the ledger, and that is noted. -/
theorem recorded_recordDone (once : site.step.runOnce = true) (w : World) :
    ((recordDone site).run w).2.store.isRecorded (ledgerKey site.goal site.step) = true ∧
    ((recordDone site).run w).2.host.journal =
      .recorded (ledgerKey site.goal site.step) :: w.host.journal := by
  have entered : (recordDone site).run w =
      (setSetting Settings.ledgerOwner (ledgerKey site.goal site.step) (.text w.host.now.text) >>=
        fun _ => note (.recorded (ledgerKey site.goal site.step))).run w := by
    rw [recordDone, if_pos once, run_get_bind]
  rw [entered]
  exact ⟨Settings.isSome_get?_set _ _ _ _, rfl⟩

end Run

end GoalScript
