import GoalScript.Proofs.Rearranging
import GoalScript.Run.Goal

namespace GoalScript

def Injection.rearrangement (i : Injection) : Rearrangement :=
  .addAlias i.moduleType i.implementation

namespace Registry

open Rearrangement

variable {r : Registry} {name key : String} {m : Module}

/-- The name gives what is registered under the key, whichever module that is. -/
structure Gives (r : Registry) (name key : String) : Prop where
  registered : r.modules.contains key = true
  follows : ∀ m, { r with modules := r.modules.insert key m }.get name = .ok m

/-- A module is given if the name asked for is not disabled and the name that it stands for is
registered. -/
theorem get_eq_ok_iff :
    r.get name = .ok m ↔ r.isDisabled name = false ∧ r.modules.get? (r.target name) = some m := by
  unfold get
  cases disabled : r.isDisabled name with
  | true => simp
  | false =>
    cases there : r.modules.get? (r.target name) with
    | some other => simp
    | none => cases gone : r.removed.contains (r.target name) <;> simp

/-- A name that is not disabled gives what is registered under the key that it stands for. -/
theorem gives_iff : r.Gives name key ↔
    r.isDisabled name = false ∧ r.target name = key ∧ r.modules.contains key = true := by
  constructor
  · intro gives
    have answer (m : Module) :
        r.isDisabled name = false ∧ (r.modules.insert key m).get? (r.target name) = some m :=
      get_eq_ok_iff.mp (gives.follows m)
    refine ⟨(answer Builtin.times).1, ?_, gives.registered⟩
    by_contra other
    -- Two modules cannot both be what is registered under another key.
    have one := (answer Builtin.times).2
    have two := (answer Builtin.users).2
    rw [Table.get?_insert, if_neg other] at one two
    have names : Builtin.times.name = Builtin.users.name :=
      congrArg Module.name (Option.some.inj (one.symm.trans two))
    exact absurd names (by decide)
  · intro ⟨enabled, stands, registered⟩
    refine ⟨registered, fun m => get_eq_ok_iff.mpr ⟨enabled, ?_⟩⟩
    have target : { r with modules := r.modules.insert key m }.target name = key := stands
    rw [target, Table.get?_insert, if_pos rfl]

/-- Whatever a name gives is registered under the key that it stands for. -/
theorem gives_of_get (answer : r.get name = .ok m) :
    r.Gives name (r.target name) ∧ r.modules.get? (r.target name) = some m := by
  obtain ⟨enabled, there⟩ := get_eq_ok_iff.mp answer
  have registered : r.modules.contains (r.target name) = true := by
    rw [Table.contains, there, Option.isSome_some]
  exact ⟨gives_iff.mpr ⟨enabled, rfl, registered⟩, there⟩

theorem isDisabled_ofHistory (changes : List Rearrangement) (name : String) :
    (ofHistory changes).isDisabled name = false ↔
      last? (disables? (Text.lowercase name)) changes ≠ some true := by
  rw [isDisabled, disabled_ofHistory]
  cases last? (disables? (Text.lowercase name)) changes <;> simp

theorem target_ofHistory (changes : List Rearrangement) (name : String) :
    (ofHistory changes).target name = Rearrangement.target changes (Text.lowercase name) := by
  rw [target, aliases_ofHistory, Rearrangement.target]

theorem contains_ofHistory (changes : List Rearrangement) (key : String) :
    (ofHistory changes).modules.contains key = true ↔
      ∃ m, last? (provides? key) changes = some (some m) := by
  rw [← standing?_ofHistory, standing?, Table.contains]
  cases there : (ofHistory changes).modules.get? key with
  | some m => simp
  | none => cases gone : (ofHistory changes).removed.contains key <;> simp

/-- What a name gives is told from the history alone. -/
theorem gives_ofHistory (changes : List Rearrangement) (name key : String) :
    (ofHistory changes).Gives name key ↔
      last? (disables? (Text.lowercase name)) changes ≠ some true ∧
        Rearrangement.target changes (Text.lowercase name) = key ∧
        ∃ m, last? (provides? key) changes = some (some m) := by
  rw [gives_iff, isDisabled_ofHistory, target_ofHistory, contains_ofHistory]

/-- A key stands for another one only by an alias. -/
theorem aliased_of_ne {changes : List Rearrangement} {own key : String}
    (stands : Rearrangement.target changes own = key) (other : own ≠ key) :
    last? (aliases? own) changes = some (some key) := by
  unfold Rearrangement.target at stands
  cases said : last? (aliases? own) changes with
  | none =>
    rw [said] at stands
    exact absurd stands other
  | some target? =>
    rw [said] at stands
    cases target? with
    | none => exact absurd stands other
    | some target => exact congrArg (fun key => some (some key)) stands

/-- The injections of a goal change the registry one after the other. -/
theorem registry_inject (goal : Goal) (w : World) :
    (Run.inject goal w).engine.registry.registry =
      (goal.injections.map Injection.rearrangement).foldl rearrange w.engine.registry.registry := by
  unfold Run.inject
  generalize goal.injections = injections
  induction injections generalizing w with
  | nil => rfl
  | cons i rest ih => exact ih _

/-- However a registry has been changed: what a name gives is registered under one key. It is never
one that has been removed since. It is one that is disabled only for a name that has been made an
alias for it and is not disabled itself; and such a name does give it. A goal is run with the
registry that its injections make by such aliases. -/
theorem disabled_modules_answer_aliases_alone (changes : List Rearrangement) (name key : String) :
    let r := ofHistory changes
    let own := Text.lowercase name
    let provided := last? (provides? key) changes
    (∀ m, r.get name = .ok m → ∃ key, r.Gives name key ∧ r.modules.get? key = some m) ∧
    (provided = some none → ¬ r.Gives name key) ∧
    (last? (disables? key) changes = some true →
      (r.Gives name key ↔ last? (disables? own) changes ≠ some true ∧
        last? (aliases? own) changes = some (some key) ∧ ∃ m, provided = some (some m))) ∧
    ∀ inv w, (Run.enterGoal inv w).engine.registry.registry =
      (inv.goal.injections.map Injection.rearrangement).foldl rearrange
        w.engine.registry.registry := by
  intro r own provided
  refine ⟨fun m answer => ⟨r.target name, gives_of_get answer⟩, fun gone gives => ?_,
    fun disabled => ?_, fun inv w => registry_inject inv.goal w⟩
  · obtain ⟨-, -, m, there⟩ := (gives_ofHistory changes name key).mp gives
    cases gone.symm.trans there
  · rw [gives_ofHistory]
    constructor
    · intro ⟨enabled, stands, there⟩
      have other : own ≠ key := by
        intro same
        rw [← same] at disabled
        exact enabled disabled
      exact ⟨enabled, aliased_of_ne stands other, there⟩
    · intro ⟨enabled, aliased, there⟩
      have stands : Rearrangement.target changes own = key := by
        rw [Rearrangement.target, aliased]
        rfl
      exact ⟨enabled, stands, there⟩

/-- A module under two names: the one that is only disabled is still given under the other. -/
theorem disabled_modules_answer_aliases_alone_twice :
    let changes : List Rearrangement := [.register "Time" Builtin.times, .disable "TIME",
      .addAlias "Clock" "time", .register "user" Builtin.users, .addAlias "person" "User",
      .remove "USER"]
    (ofHistory changes).Gives "clock" "time" ∧ ¬ (ofHistory changes).Gives "Person" "user" := by
  intro changes
  constructor
  · have disabled : last? (disables? "time") changes = some true := by with_unfolding_all rfl
    have reached := (disabled_modules_answer_aliases_alone changes "clock" "time").2.2.1 disabled
    apply reached.mpr
    refine ⟨?_, ?_, Builtin.times, ?_⟩
    · have silent : last? (disables? (Text.lowercase "clock")) changes = none := by
        with_unfolding_all rfl
      simp [silent]
    · with_unfolding_all rfl
    · with_unfolding_all rfl
  · have gone : last? (provides? "user") changes = some none := by with_unfolding_all rfl
    exact (disabled_modules_answer_aliases_alone changes "Person" "user").2.1 gone

/-- A disabled module is given under another name. -/
theorem aliases_give_disabled_modules :
    let changes := (Builtin.all.map fun m => .register m.name m) ++
      [.disable "time", .addAlias "user" "time"]
    (ofHistory changes).isDisabled "time" = true ∧ (ofHistory changes).Gives "user" "time" ∧
      (ofHistory changes).get "user" = .ok Builtin.times := by
  intro changes
  refine ⟨by with_unfolding_all rfl, gives_iff.mpr ⟨?_, ?_, ?_⟩, ?_⟩
  all_goals with_unfolding_all rfl

end Registry

end GoalScript
