import GoalScript.Proofs.Tables
import GoalScript.Registry
import Mathlib.Data.List.Induction

namespace GoalScript

inductive Rearrangement where
  | register (name : String) (m : Module)
  | addAlias (name target : String)
  | clearAlias (name : String)
  | disable (name : String)
  | enable (name : String)
  | remove (name : String)

def Registry.rearrange (r : Registry) : Rearrangement → Registry
  | .register name m => r.register name m
  | .addAlias name target => r.addAlias name target
  | .clearAlias name => r.clearAlias name
  | .disable name => r.disable name
  | .enable name => r.enable name
  | .remove name => r.remove name

def Registry.ofHistory (changes : List Rearrangement) : Registry :=
  changes.foldl Registry.rearrange {}

namespace Rearrangement

variable {α β : Type}

def disables? (key : String) : Rearrangement → Option Bool
  | .disable name => if Text.lowercase name = key then some true else none
  | .enable name => if Text.lowercase name = key then some false else none
  | _ => none

/-- What the key stands for from now on: another one, or nothing but itself. -/
def aliases? (key : String) : Rearrangement → Option (Option String)
  | .addAlias name target =>
    if Text.lowercase name = key then some (some (Text.lowercase target)) else none
  | .clearAlias name => if Text.lowercase name = key then some none else none
  | _ => none

/-- What there is under the key from now on: a module, or the mark that one has been removed. -/
def provides? (key : String) : Rearrangement → Option (Option Module)
  | .register name m => if Text.lowercase name = key then some (some m) else none
  | .remove name => if Text.lowercase name = key then some none else none
  | _ => none

/-- What is said on a matter by the last of the changes that are about it. -/
def last? (says? : Rearrangement → Option α) (changes : List Rearrangement) : Option α :=
  (changes.filterMap says?).getLast?

theorem last?_concat (says? : Rearrangement → Option α) (changes : List Rearrangement)
    (change : Rearrangement) :
    last? says? (changes ++ [change]) = (says? change).or (last? says? changes) := by
  rw [last?, List.filterMap_append, List.getLast?_append]
  cases said : says? change <;> simp [last?, said]

theorem last?_eq_none_iff {says? : Rearrangement → Option α} {changes : List Rearrangement} :
    last? says? changes = none ↔ ∀ change ∈ changes, says? change = none := by
  rw [last?, List.getLast?_eq_none_iff, List.filterMap_eq_nil_iff]

/-- The key that a key stands for after the changes: the target of the last alias that has not been
cleared since, or the key itself. -/
def target (changes : List Rearrangement) (key : String) : String :=
  (last? (aliases? key) changes).join.getD key

end Rearrangement

namespace Registry

open Rearrangement

variable {α β : Type} {r : Registry} {key : String}

/-- The sets of names are sorted, and no module is there that counts as removed. -/
structure Orderly (r : Registry) : Prop where
  disabled : r.disabled.Sorted
  removed : r.removed.Sorted
  apart : ∀ key, r.modules.contains key = true → key ∉ r.removed

theorem orderly_empty : Orderly {} where
  disabled := List.Pairwise.nil
  removed := List.Pairwise.nil
  apart _ _ := List.not_mem_nil

theorem Orderly.rearrange (h : r.Orderly) (change : Rearrangement) :
    (r.rearrange change).Orderly := by
  cases change with
  | register name m =>
    refine ⟨h.disabled, h.removed.erase _, fun key there => ?_⟩
    simp only [Registry.rearrange, register, Table.contains, Table.get?_insert] at there
    intro gone
    obtain ⟨other, gone⟩ := h.removed.mem_erase.mp gone
    rw [if_neg other] at there
    exact h.apart key there gone
  | addAlias name target => exact ⟨h.disabled, h.removed, h.apart⟩
  | clearAlias name => exact ⟨h.disabled, h.removed, h.apart⟩
  | disable name => exact ⟨h.disabled.insert _, h.removed, h.apart⟩
  | enable name => exact ⟨h.disabled.erase _, h.removed, h.apart⟩
  | remove name =>
    refine ⟨h.disabled, h.removed.insert _, fun key there => ?_⟩
    simp only [Registry.rearrange, remove, Table.contains, Table.get?_erase] at there
    intro gone
    rcases Names.mem_insert.mp gone with same | gone
    · simp [same] at there
    · split at there
      · cases there
      · exact h.apart key there gone

@[simp]
theorem ofHistory_concat (changes : List Rearrangement) (change : Rearrangement) :
    ofHistory (changes ++ [change]) = (ofHistory changes).rearrange change := by
  simp [ofHistory]

/-- Every history leaves a registry in order. -/
theorem orderly_ofHistory (changes : List Rearrangement) : (ofHistory changes).Orderly := by
  induction changes using List.reverseRecOn with
  | nil => exact orderly_empty
  | append_singleton changes change ih =>
    rw [ofHistory_concat]
    exact ih.rearrange change

/-- What each change that is about a matter sets anew, and every other one leaves, is as the last of
the former has set it. -/
theorem eq_of_last? {says? : Rearrangement → Option α} {v : Registry → β} {g : Option α → β}
    (start : v {} = g none)
    (step : ∀ r : Registry, r.Orderly → ∀ change,
      v (r.rearrange change) = (says? change).elim (v r) fun a => g (some a))
    (changes : List Rearrangement) : v (ofHistory changes) = g (last? says? changes) := by
  induction changes using List.reverseRecOn with
  | nil => exact start
  | append_singleton changes change ih =>
    rw [ofHistory_concat, step _ (orderly_ofHistory changes), last?_concat, ih]
    cases says? change <;> rfl

/-- A key is disabled if the last change about that has disabled it. -/
theorem disabled_ofHistory (changes : List Rearrangement) (key : String) :
    (ofHistory changes).disabled.contains key = (last? (disables? key) changes).getD false := by
  refine eq_of_last? (v := fun r => r.disabled.contains key) (g := fun said => said.getD false) rfl
    (fun r h change => ?_) changes
  cases change with
  | disable name =>
    by_cases same : Text.lowercase name = key
    · simp [rearrange, disable, disables?, Names.mem_insert, same]
    · simp [rearrange, disable, disables?, Names.mem_insert, same, Ne.symm same]
  | enable name =>
    by_cases same : Text.lowercase name = key
    · simp [rearrange, enable, disables?, h.disabled.mem_erase, same]
    · simp [rearrange, enable, disables?, h.disabled.mem_erase, same, Ne.symm same]
  | _ => rfl

/-- A key is an alias if the last change about that has made it one. -/
theorem aliases_ofHistory (changes : List Rearrangement) (key : String) :
    (ofHistory changes).aliases.get? key = (last? (aliases? key) changes).join := by
  refine eq_of_last? (v := fun r => r.aliases.get? key) (g := Option.join) rfl
    (fun r _ change => ?_) changes
  cases change with
  | addAlias name target =>
    simp only [rearrange, addAlias, aliases?, Table.get?_insert, eq_comm (a := key)]
    split <;> rfl
  | clearAlias name =>
    simp only [rearrange, clearAlias, aliases?, Table.get?_erase, eq_comm (a := key)]
    split <;> rfl
  | _ => rfl

def standing? (r : Registry) (key : String) : Option (Option Module) :=
  match r.modules.get? key with
  | some m => some (some m)
  | none => if r.removed.contains key then some none else none

/-- Under a key stands what the last change about it has put there. -/
theorem standing?_ofHistory (changes : List Rearrangement) (key : String) :
    (ofHistory changes).standing? key = last? (provides? key) changes := by
  refine eq_of_last? (v := fun r => r.standing? key) (g := id) rfl (fun r _ change => ?_) changes
  cases change with
  | register name m =>
    by_cases same : Text.lowercase name = key
    · simp [rearrange, register, standing?, provides?, Table.get?_insert, same]
    · simp [rearrange, register, standing?, provides?, Table.get?_insert, same, Ne.symm same,
        List.mem_erase_of_ne (Ne.symm same)]
  | remove name =>
    by_cases same : Text.lowercase name = key
    · simp [rearrange, remove, standing?, provides?, Table.get?_erase, Names.mem_insert, same]
    · simp [rearrange, remove, standing?, provides?, Table.get?_erase, Names.mem_insert, same,
        Ne.symm same]
  | _ => rfl

/-- What a registry answers depends on whether the name is disabled, and on what there is under the
key that it stands for. -/
theorem get_eq (r : Registry) (name : String) :
    r.get name =
      if r.isDisabled name then .error (.disabled name)
      else match r.standing? (r.target name) with
        | some (some m) => .ok m
        | some none => .error (.removed name)
        | none => .error (.notRegistered name (Suggestion.nearest? name r.names)) := by
  rw [get, standing?]
  cases r.modules.get? (r.target name) with
  | some m => rfl
  | none => cases r.removed.contains (r.target name) <;> rfl

theorem get_eq_disabled_iff (r : Registry) (name : String) :
    r.get name = .error (.disabled name) ↔ r.isDisabled name = true := by
  rw [get_eq]
  constructor
  · intro answer
    split at answer
    · assumption
    · split at answer <;> cases answer
  · intro disabled
    rw [if_pos disabled]

/-- The answers for a name that is not disabled. -/
theorem get_of_enabled {name : String} (enabled : r.isDisabled name = false) :
    let standing := r.standing? (r.target name)
    (∀ m, r.get name = .ok m ↔ standing = some (some m)) ∧
      (r.get name = .error (.removed name) ↔ standing = some none) ∧
      (r.get name = .error (.notRegistered name (Suggestion.nearest? name r.names)) ↔
        standing = none) := by
  intro standing
  have answer := r.get_eq name
  rw [if_neg (by simp [enabled])] at answer
  rw [answer]
  rcases h : r.standing? (r.target name) with _ | _ | m <;> simp [standing, h]

/-- However a registry has been changed, letter case of names aside: a name is disabled if the last
change to disable or enable it has disabled it. Otherwise the registry gives the module last
registered under the key that the name stands for, unless that has been removed since; and it tells
a module that has been removed from one that never was there. No module that is there counts as
removed. -/
theorem lookups_follow_history (changes : List Rearrangement) (name : String) :
    let r := ofHistory changes
    let key := Text.lowercase name
    let standing := last? (provides? (Rearrangement.target changes key)) changes
    (r.get name = .error (.disabled name) ↔ last? (disables? key) changes = some true) ∧
    (last? (disables? key) changes ≠ some true →
      (∀ m, r.get name = .ok m ↔ standing = some (some m)) ∧
      (r.get name = .error (.removed name) ↔ standing = some none) ∧
      (r.get name = .error (.notRegistered name (Suggestion.nearest? name r.names)) ↔
        ∀ change ∈ changes, change.provides? (Rearrangement.target changes key) = none)) ∧
    ∀ key, r.modules.contains key = true → key ∉ r.removed := by
  intro r key standing
  have disabled : r.isDisabled name = (last? (disables? key) changes).getD false :=
    disabled_ofHistory changes key
  have target : r.target name = Rearrangement.target changes key := by
    rw [Registry.target, aliases_ofHistory, Rearrangement.target]
  have there : r.standing? (r.target name) = standing := by rw [target, standing?_ofHistory]
  refine ⟨?_, fun last => ?_, (orderly_ofHistory changes).apart⟩
  · rw [get_eq_disabled_iff, disabled]
    cases last? (disables? key) changes <;> simp
  · have enabled : r.isDisabled name = false := by
      rw [disabled]
      cases said : last? (disables? key) changes with
      | none => rfl
      | some b => simpa [said] using last
    have answers := get_of_enabled enabled
    rw [there] at answers
    rw [← last?_eq_none_iff]
    exact answers

/-- The registry that engines start with has a history, and so has whatever it is changed to. -/
theorem ofHistory_builtins (changes : List Rearrangement) :
    ofHistory ((Builtin.all.map fun m => .register m.name m) ++ changes) =
      changes.foldl rearrange withBuiltins := by
  rw [ofHistory, List.foldl_append, List.foldl_map]
  rfl

/-- An alias for a module that has been removed, disabled and enabled again, and spelled otherwise
each time. -/
theorem lookups_follow_history_removed :
    let r := (withBuiltins.remove "User").addAlias "person" "USER"
    ((r.disable "Person").enable "PERSON").get "pErson" = .error (.removed "pErson") := by
  let later : List Rearrangement :=
    [.remove "User", .addAlias "person" "USER", .disable "Person", .enable "PERSON"]
  let changes := (Builtin.all.map fun m => .register m.name m) ++ later
  have enabled : last? (disables? (Text.lowercase "pErson")) changes = some false := by
    with_unfolding_all rfl
  have answers := (lookups_follow_history changes "pErson").2.1 (by simp [enabled])
  rw [ofHistory_builtins] at answers
  apply answers.2.1.mpr
  with_unfolding_all rfl

end Registry

end GoalScript
