import GoalScript.Proofs.Rearranging
import Mathlib.Logic.Function.Basic

namespace GoalScript

abbrev Slots (α : Type) := List (Option α)

namespace Slots

variable {α β : Type} {s : Slots α} {i : Nat} {x : Option α} {a : α}

def at? (s : Slots α) (i : Nat) : Option α := s[i]?.join

theorem lt_of_at? (h : s.at? i = some a) : i < s.length := by
  by_contra out
  simp [at?, List.getElem?_eq_none (Nat.le_of_not_lt out)] at h

theorem at?_concat (s : Slots α) (x : Option α) (j : Nat) :
    at? (s ++ [x]) j = if j = s.length then x else s.at? j := by
  unfold at?
  split
  · rename_i last
    simp [last]
  · rename_i other
    rcases Nat.lt_or_gt_of_ne other with inside | beyond
    · rw [List.getElem?_append_left inside]
    · rw [List.getElem?_eq_none (by simp; omega), List.getElem?_eq_none (Nat.le_of_lt beyond)]

/-- What is put in the place of something is there afterwards. -/
theorem at?_set (h : s.at? i = none → x = none) (j : Nat) :
    at? (s.set i x) j = if j = i then x else s.at? j := by
  by_cases same : j = i
  · subst same
    rw [if_pos rfl]
    by_cases inside : j < s.length
    · simp [at?, inside]
    · have out : s.at? j = none := by simp [at?, List.getElem?_eq_none (Nat.le_of_not_lt inside)]
      rw [h out, List.set_eq_of_length_le (Nat.le_of_not_lt inside), out]
  · simp [at?, List.getElem?_set_ne (Ne.symm same), same]

theorem at?_set_map (f : α → α) (s : Slots α) (i j : Nat) :
    at? (s.set i ((s.at? i).map f)) j = if j = i then (s.at? i).map f else s.at? j :=
  at?_set (fun none => by rw [none]; rfl) j

theorem at?_set_none (s : Slots α) (i j : Nat) :
    at? (s.set i none) j = if j = i then none else s.at? j :=
  at?_set (fun _ => rfl) j

theorem set_at?_self (s : Slots α) (i : Nat) : s.set i (s.at? i) = s := by
  apply List.ext_getElem?
  intro j
  rw [List.getElem?_set]
  split
  · rename_i same
    subst same
    split
    · rename_i inside
      simp [at?, List.getElem?_eq_getElem inside]
    · rename_i outside
      exact (List.getElem?_eq_none (Nat.le_of_not_lt outside)).symm
  · rfl

theorem some_mem_iff : some a ∈ s ↔ ∃ i, s.at? i = some a := by
  simp [List.mem_iff_getElem?, at?, Option.join_eq_some_iff]

theorem at?_map (f : α → β) (s : Slots α) (i : Nat) :
    at? (s.map (Option.map f)) i = (s.at? i).map f := by
  rw [at?, at?, List.getElem?_map]
  cases s[i]? <;> rfl

def Below (s : Slots Nat) (n : Nat) : Prop := ∀ a, some a ∈ s → a < n

namespace Below

variable {s : Slots Nat} {n m : Nat} {x : Option Nat}

theorem mono (h : s.Below n) (le : n ≤ m) : s.Below m :=
  fun a member => Nat.lt_of_lt_of_le (h a member) le

theorem concat (h : s.Below n) (new : ∀ a, x = some a → a < n) : Below (s ++ [x]) n := by
  intro a member
  rcases List.mem_append.mp member with old | last
  · exact h a old
  · exact new a (List.mem_singleton.mp last).symm

theorem set (h : s.Below n) (i : Nat) (new : ∀ a, x = some a → a < n) : Below (s.set i x) n := by
  intro a member
  rcases List.mem_or_eq_of_mem_set member with old | last
  · exact h a old
  · exact new a last.symm

theorem erase (h : s.Below n) (i : Nat) : Below (s.set i none) n :=
  h.set i fun _ none => by cases none

theorem not_mem (h : s.Below n) : some n ∉ s := fun member => Nat.lt_irrefl n (h n member)

end Below

end Slots

inductive Handling where
  | make (r : Registry)
  | clone (i : Nat)
  | change (i : Nat) (change : Rearrangement)
  | drop (i : Nat)

def Handling.Touches (i : Nat) : Handling → Prop
  | .change j _ => j = i
  | .drop j => j = i
  | _ => False

/-- Handles that have each a registry of its own. -/
abbrev Copies := Slots Registry

namespace Copies

def handle (c : Copies) : Handling → Copies
  | .make r => c ++ [some r]
  | .clone i => c ++ [c.at? i]
  | .change i change => c.set i ((c.at? i).map (·.rearrange change))
  | .drop i => c.set i none

def ofHistory (history : List Handling) : Copies := history.foldl handle []

@[simp]
theorem ofHistory_concat (history : List Handling) (handling : Handling) :
    ofHistory (history ++ [handling]) = (ofHistory history).handle handling := by
  simp [ofHistory]

end Copies

structure Handles where
  slots : Slots Handle := []
  fresh : Nat := 0

namespace Handles

def handle (h : Handles) : Handling → Handles
  | .make r => { slots := h.slots ++ [some ⟨r, h.fresh⟩], fresh := h.fresh + 1 }
  | .clone i => { h with slots := h.slots ++ [h.slots.at? i] }
  | .change i change => {
      slots := h.slots.set i ((h.slots.at? i).map (·.change h.fresh (·.rearrange change)))
      fresh := h.fresh + 1 }
  | .drop i => { h with slots := h.slots.set i none }

def ofHistory (history : List Handling) : Handles := history.foldl handle {}

@[simp]
theorem ofHistory_concat (history : List Handling) (handling : Handling) :
    ofHistory (history ++ [handling]) = (ofHistory history).handle handling := by
  simp [ofHistory]

def held? (h : Handles) (i : Nat) : Option Registry := (h.slots.at? i).map Handle.registry

def Shares (h : Handles) (i j : Nat) : Prop :=
  ∃ x y, h.slots.at? i = some x ∧ h.slots.at? j = some y ∧ x.sharesWith y = true

end Handles

/-- Snapshots of registries by address, the handles that point at them, and the next address. -/
structure Snapshots where
  cells : Nat → Registry := fun _ => {}
  pointers : Slots Nat := []
  next : Nat := 0

namespace Snapshots

/-- Changes the snapshot that the handle points at, if no other one does, or else a copy of it. -/
def write (s : Snapshots) (i : Nat) (change : Rearrangement) : Snapshots :=
  match s.pointers.at? i with
  | none => s
  | some a =>
    let changed := (s.cells a).rearrange change
    if (s.pointers.set i none).contains (some a) then {
      cells := Function.update s.cells s.next changed
      pointers := s.pointers.set i (some s.next)
      next := s.next + 1 }
    else { s with cells := Function.update s.cells a changed }

def handle (s : Snapshots) : Handling → Snapshots
  | .make r => {
      cells := Function.update s.cells s.next r
      pointers := s.pointers ++ [some s.next]
      next := s.next + 1 }
  | .clone i => { s with pointers := s.pointers ++ [s.pointers.at? i] }
  | .change i change => s.write i change
  | .drop i => { s with pointers := s.pointers.set i none }

def ofHistory (history : List Handling) : Snapshots := history.foldl handle {}

@[simp]
theorem ofHistory_concat (history : List Handling) (handling : Handling) :
    ofHistory (history ++ [handling]) = (ofHistory history).handle handling := by
  simp [ofHistory]

def held? (s : Snapshots) (i : Nat) : Option Registry := (s.pointers.at? i).map s.cells

def Shares (s : Snapshots) (i j : Nat) : Prop :=
  ∃ a, s.pointers.at? i = some a ∧ s.pointers.at? j = some a

end Snapshots

/-- The handle `j` comes from the handle `i` as it was after the first part of the history: by
cloning, and without a change since. -/
inductive Descends (before : List Handling) (i : Nat) : List Handling → Nat → Prop where
  | self : Descends before i [] i
  | kept {after : List Handling} {handling : Handling} {j : Nat} (h : Descends before i after j)
      (spared : ¬ handling.Touches j) : Descends before i (after ++ [handling]) j
  | cloned {after : List Handling} {j : Nat} (h : Descends before i after j) :
      Descends before i (after ++ [.clone j]) (Copies.ofHistory (before ++ after)).length

/-- Both handles come from one handle, and neither has been changed since. -/
def Kin (history : List Handling) (i j : Nat) : Prop :=
  ∃ before after k r, history = before ++ after ∧ (Copies.ofHistory before).at? k = some r ∧
    Descends before k after i ∧ Descends before k after j

theorem Kin.symm {history : List Handling} {i j : Nat} (h : Kin history i j) : Kin history j i := by
  obtain ⟨before, after, k, r, split, there, left, right⟩ := h
  exact ⟨before, after, k, r, split, there, right, left⟩

/-- Handles stay kin while neither is touched. -/
theorem Kin.kept {history : List Handling} {handling : Handling} {i j : Nat} (h : Kin history i j)
    (left : ¬ handling.Touches i) (right : ¬ handling.Touches j) :
    Kin (history ++ [handling]) i j := by
  obtain ⟨before, after, k, r, rfl, there, first, second⟩ := h
  exact ⟨before, after ++ [handling], k, r, by simp, there, first.kept left, second.kept right⟩

/-- A clone is kin to whatever its original is kin to. -/
theorem Kin.cloned {history : List Handling} {i j : Nat} (h : Kin history i j) :
    Kin (history ++ [.clone i]) (Copies.ofHistory history).length j := by
  obtain ⟨before, after, k, r, rfl, there, first, second⟩ := h
  exact ⟨before, after ++ [.clone i], k, r, by simp, there, first.cloned,
    second.kept fun touched : Handling.Touches j (.clone i) => touched⟩

theorem kin_self {history : List Handling} {i : Nat} {r : Registry}
    (there : (Copies.ofHistory history).at? i = some r) : Kin history i i :=
  ⟨history, [], i, r, by simp, there, .self, .self⟩

/-- A label for every handle: a handle gets a new one when it is made and when it is changed, or at
least one that no other handle has, and a clone gets the label of what it is a clone of. -/
structure Labelling (label : List Handling → Slots Nat) : Prop where
  start : label [] = []
  make : ∀ history r, ∃ a, some a ∉ label history ∧
    label (history ++ [.make r]) = label history ++ [some a]
  clone : ∀ history i,
    label (history ++ [.clone i]) = label history ++ [(label history).at? i]
  change : ∀ history i change, ∃ a, some a ∉ (label history).set i none ∧
    label (history ++ [.change i change]) =
      (label history).set i (((label history).at? i).map fun _ => a)
  drop : ∀ history i, label (history ++ [.drop i]) = (label history).set i none

namespace Labelling

variable {label : List Handling → Slots Nat} {history : List Handling} {i j a : Nat}

/-- The handles that have a label are those that are there. -/
theorem same_shape (h : Labelling label) (history : List Handling) :
    (label history).length = (Copies.ofHistory history).length ∧
      ∀ i, ((label history).at? i).isSome = ((Copies.ofHistory history).at? i).isSome := by
  induction history using List.reverseRecOn with
  | nil =>
    rw [h.start]
    exact ⟨rfl, fun _ => rfl⟩
  | append_singleton history handling ih =>
    obtain ⟨length, there⟩ := ih
    rw [Copies.ofHistory_concat]
    cases handling with
    | make r =>
      obtain ⟨a, -, made⟩ := h.make history r
      rw [made, Copies.handle]
      refine ⟨by simp [length], fun i => ?_⟩
      rw [Slots.at?_concat, Slots.at?_concat, length]
      split
      · rfl
      · exact there i
    | clone m =>
      rw [h.clone, Copies.handle]
      refine ⟨by simp [length], fun i => ?_⟩
      rw [Slots.at?_concat, Slots.at?_concat, length]
      split
      · exact there m
      · exact there i
    | change m change =>
      obtain ⟨a, -, changed⟩ := h.change history m change
      rw [changed, Copies.handle]
      refine ⟨by simp [length], fun i => ?_⟩
      rw [Slots.at?_set_map, Slots.at?_set_map]
      split
      · simp [there m]
      · exact there i
    | drop m =>
      rw [h.drop, Copies.handle]
      refine ⟨by simp [length], fun i => ?_⟩
      rw [Slots.at?_set_none, Slots.at?_set_none]
      split
      · rfl
      · exact there i

theorem exists_registry (h : Labelling label) (there : (label history).at? i = some a) :
    ∃ r, (Copies.ofHistory history).at? i = some r := by
  rw [← Option.isSome_iff_exists, ← (h.same_shape history).2 i, there]
  rfl

/-- A handle that is left alone keeps its label. -/
theorem at?_of_spared (h : Labelling label) {handling : Handling}
    (spared : ¬ handling.Touches j) (labelled : (label history).at? j = some a) :
    (label (history ++ [handling])).at? j = some a := by
  have old := Nat.ne_of_lt (Slots.lt_of_at? labelled)
  cases handling with
  | make r =>
    obtain ⟨b, -, made⟩ := h.make history r
    rw [made, Slots.at?_concat, if_neg old, labelled]
  | clone m => rw [h.clone, Slots.at?_concat, if_neg old, labelled]
  | change m change =>
    obtain ⟨b, -, changed⟩ := h.change history m change
    rw [changed, Slots.at?_set_map, if_neg (Ne.symm spared), labelled]
  | drop m => rw [h.drop, Slots.at?_set_none, if_neg (Ne.symm spared), labelled]

/-- Where the label of a handle comes from: the handle has kept it, or is a clone of one that has
it, or is the only one that has it. -/
theorem origin (h : Labelling label) {handling : Handling}
    (labelled : (label (history ++ [handling])).at? j = some a) :
    (¬ handling.Touches j ∧ (label history).at? j = some a) ∨
      (∃ m, handling = .clone m ∧ j = (Copies.ofHistory history).length ∧
        (label history).at? m = some a) ∨
      ∀ i, (label (history ++ [handling])).at? i = some a → i = j := by
  cases handling with
  | make r =>
    obtain ⟨b, fresh, made⟩ := h.make history r
    rw [made] at labelled ⊢
    rw [Slots.at?_concat] at labelled
    split at labelled
    · rename_i last
      obtain rfl := Option.some.inj labelled
      refine .inr (.inr fun i same => ?_)
      rw [Slots.at?_concat] at same
      split at same
      · rename_i last'
        rw [last, last']
      · exact absurd (Slots.some_mem_iff.mpr ⟨i, same⟩) fresh
    · exact .inl ⟨fun touched => touched, labelled⟩
  | clone m =>
    rw [h.clone, Slots.at?_concat] at labelled
    split at labelled
    · rename_i last
      exact .inr (.inl ⟨m, rfl, last.trans (h.same_shape history).1, labelled⟩)
    · exact .inl ⟨fun touched => touched, labelled⟩
  | change m change =>
    obtain ⟨b, fresh, changed⟩ := h.change history m change
    rw [changed] at labelled ⊢
    rw [Slots.at?_set_map] at labelled
    split at labelled
    · rename_i same
      subst same
      obtain ⟨c, -, rfl⟩ := Option.map_eq_some_iff.mp labelled
      refine .inr (.inr fun i also => ?_)
      by_contra other
      rw [Slots.at?_set_map, if_neg other] at also
      exact fresh (Slots.some_mem_iff.mpr ⟨i, by rw [Slots.at?_set_none, if_neg other, also]⟩)
    · rename_i other
      exact .inl ⟨fun touched => other touched.symm, labelled⟩
  | drop m =>
    rw [h.drop, Slots.at?_set_none] at labelled
    split at labelled
    · cases labelled
    · rename_i other
      exact .inl ⟨fun touched => other touched.symm, labelled⟩

/-- What descends from a handle has its label. -/
theorem at?_of_descends (h : Labelling label) {before after : List Handling} {k i : Nat}
    (descends : Descends before k after i) (labelled : (label before).at? k = some a) :
    (label (before ++ after)).at? i = some a := by
  induction descends with
  | self => rwa [List.append_nil]
  | kept _ spared ih =>
    rw [← List.append_assoc]
    exact h.at?_of_spared spared ih
  | cloned _ ih =>
    rw [← List.append_assoc, h.clone, Slots.at?_concat, (h.same_shape _).1, if_pos rfl, ih]

/-- Handles that have the same label come from one handle, without a change since. -/
theorem kin_of_same (h : Labelling label) (left : (label history).at? i = some a)
    (right : (label history).at? j = some a) : Kin history i j := by
  induction history using List.reverseRecOn generalizing i j with
  | nil =>
    rw [h.start] at left
    cases left
  | append_singleton history handling ih =>
    by_cases same : i = j
    · subst same
      obtain ⟨r, there⟩ := h.exists_registry left
      exact kin_self there
    · rcases h.origin left with ⟨spared, before⟩ | ⟨m, rfl, rfl, before⟩ | only
      · rcases h.origin right with ⟨spared', before'⟩ | ⟨m, rfl, rfl, before'⟩ | only
        · exact (ih before before').kept spared spared'
        · exact (ih before' before).cloned.symm
        · exact absurd (only i left) same
      · rcases h.origin right with ⟨-, before'⟩ | ⟨_, -, rfl, -⟩ | only
        · exact (ih before before').cloned
        · exact absurd rfl same
        · exact absurd (only _ left) same
      · exact absurd (only j right).symm same

/-- Handles have the same label exactly when they come from one handle, without a change since. -/
theorem same_iff_kin (h : Labelling label) (history : List Handling) (i j : Nat) :
    (∃ a, (label history).at? i = some a ∧ (label history).at? j = some a) ↔
      Kin history i j := by
  constructor
  · rintro ⟨a, left, right⟩
    exact h.kin_of_same left right
  · rintro ⟨before, after, k, r, rfl, there, left, right⟩
    have labelled : ((label before).at? k).isSome = true := by
      rw [(h.same_shape before).2 k, there]
      rfl
    obtain ⟨a, labelled⟩ := Option.isSome_iff_exists.mp labelled
    exact ⟨a, h.at?_of_descends left labelled, h.at?_of_descends right labelled⟩

end Labelling

namespace Handles

def stamps (h : Handles) : Slots Nat := h.slots.map (Option.map Handle.stamp)

theorem stamps_handle (h : Handles) (handling : Handling) :
    (h.handle handling).stamps = match handling with
      | .make _ => h.stamps ++ [some h.fresh]
      | .clone i => h.stamps ++ [h.stamps.at? i]
      | .change i _ => h.stamps.set i ((h.stamps.at? i).map fun _ => h.fresh)
      | .drop i => h.stamps.set i none := by
  cases handling with
  | make r => simp [handle, stamps]
  | clone i => simp [handle, stamps, Slots.at?_map]
  | change i change =>
    simp only [handle, stamps, List.map_set, Slots.at?_map, Option.map_map]
    rfl
  | drop i => simp [handle, stamps, List.map_set]

/-- No handle has the stamp that is given next. -/
theorem below (history : List Handling) :
    (ofHistory history).stamps.Below (ofHistory history).fresh := by
  induction history using List.reverseRecOn with
  | nil => exact fun a member => absurd member List.not_mem_nil
  | append_singleton history handling ih =>
    rw [ofHistory_concat, stamps_handle]
    have later := ih.mono (Nat.le_succ _)
    cases handling with
    | make r =>
      refine later.concat fun a given => ?_
      cases given
      exact Nat.lt_succ_self _
    | clone i => exact ih.concat fun a given => ih a (Slots.some_mem_iff.mpr ⟨i, given⟩)
    | change i change =>
      refine later.set i fun a given => ?_
      obtain ⟨-, -, rfl⟩ := Option.map_eq_some_iff.mp given
      exact Nat.lt_succ_self _
    | drop i => exact ih.erase i

theorem labelling : Labelling fun history => (ofHistory history).stamps where
  start := rfl
  make history r := ⟨_, (below history).not_mem, by rw [ofHistory_concat, stamps_handle]⟩
  clone history i := by rw [ofHistory_concat, stamps_handle]
  change history i change :=
    ⟨_, ((below history).erase i).not_mem, by rw [ofHistory_concat, stamps_handle]⟩
  drop history i := by rw [ofHistory_concat, stamps_handle]

/-- Handles share what they point at if they have the same stamp. -/
theorem shares_iff (h : Handles) (i j : Nat) :
    h.Shares i j ↔ ∃ a, h.stamps.at? i = some a ∧ h.stamps.at? j = some a := by
  simp only [Shares, stamps, Slots.at?_map, Option.map_eq_some_iff, Handle.sharesWith, beq_iff_eq]
  constructor
  · rintro ⟨x, y, left, right, same⟩
    exact ⟨x.stamp, ⟨x, left, rfl⟩, y, right, same.symm⟩
  · rintro ⟨a, ⟨x, left, rfl⟩, y, right, same⟩
    exact ⟨x, y, left, right, same.symm⟩

/-- Handles answer as if each had a registry of its own. -/
theorem held?_ofHistory (history : List Handling) (i : Nat) :
    (ofHistory history).held? i = (Copies.ofHistory history).at? i := by
  have same : (ofHistory history).slots.map (Option.map Handle.registry) =
      Copies.ofHistory history := by
    induction history using List.reverseRecOn with
    | nil => rfl
    | append_singleton history handling ih =>
      rw [ofHistory_concat, Copies.ofHistory_concat, ← ih]
      cases handling with
      | make r => simp [handle, Copies.handle]
      | clone m => simp [handle, Copies.handle, Slots.at?_map]
      | change m change =>
        simp only [handle, Copies.handle, Slots.at?_map, List.map_set, Option.map_map]
        rfl
      | drop m => simp [handle, Copies.handle, List.map_set]
  rw [held?, ← Slots.at?_map, same]

end Handles

namespace Snapshots

variable {s : Snapshots} {i a : Nat}

theorem write_of_gone (gone : s.pointers.at? i = none) (change : Rearrangement) :
    s.write i change = s := by
  rw [write, gone]

/-- What other handles point at is copied. -/
theorem write_of_shared (there : s.pointers.at? i = some a)
    (shared : some a ∈ s.pointers.set i none) (change : Rearrangement) :
    s.write i change = {
      cells := Function.update s.cells s.next ((s.cells a).rearrange change)
      pointers := s.pointers.set i (some s.next)
      next := s.next + 1 } := by
  rw [write, there]
  exact if_pos (List.contains_iff_mem.mpr shared)

/-- A snapshot that nobody else points at is changed where it is. -/
theorem write_of_unshared (there : s.pointers.at? i = some a)
    (unshared : some a ∉ s.pointers.set i none) (change : Rearrangement) :
    s.write i change =
      { s with cells := Function.update s.cells a ((s.cells a).rearrange change) } := by
  rw [write, there]
  exact if_neg fun shared => unshared (List.contains_iff_mem.mp shared)

/-- Where a handle points after a change through it no other handle does. -/
theorem pointers_write (below : s.pointers.Below s.next) (i : Nat) (change : Rearrangement) :
    ∃ a, some a ∉ s.pointers.set i none ∧
      (s.write i change).pointers = s.pointers.set i ((s.pointers.at? i).map fun _ => a) := by
  cases there : s.pointers.at? i with
  | none =>
    refine ⟨s.next, (below.erase i).not_mem, ?_⟩
    rw [write_of_gone there, Option.map_none, ← there, Slots.set_at?_self]
  | some a =>
    by_cases shared : some a ∈ s.pointers.set i none
    · refine ⟨s.next, (below.erase i).not_mem, ?_⟩
      rw [write_of_shared there shared]
      rfl
    · refine ⟨a, shared, ?_⟩
      rw [write_of_unshared there shared, Option.map_some, ← there, Slots.set_at?_self]

/-- No handle points at the address that is used next. -/
theorem below (history : List Handling) :
    (ofHistory history).pointers.Below (ofHistory history).next := by
  induction history using List.reverseRecOn with
  | nil => exact fun a member => absurd member List.not_mem_nil
  | append_singleton history handling ih =>
    rw [ofHistory_concat]
    have later := ih.mono (Nat.le_succ _)
    have next (a : Nat) (given : some (ofHistory history).next = some a) :
        a < (ofHistory history).next + 1 := by
      cases given
      exact Nat.lt_succ_self _
    cases handling with
    | make r => exact later.concat next
    | clone i => exact ih.concat fun a given => ih a (Slots.some_mem_iff.mpr ⟨i, given⟩)
    | change i change =>
      rw [handle]
      cases there : (ofHistory history).pointers.at? i with
      | none =>
        rw [write_of_gone there]
        exact ih
      | some a =>
        by_cases shared : some a ∈ (ofHistory history).pointers.set i none
        · rw [write_of_shared there shared]
          exact later.set i next
        · rw [write_of_unshared there shared]
          exact ih
    | drop i => exact ih.erase i

theorem labelling : Labelling fun history => (ofHistory history).pointers where
  start := rfl
  make history r := ⟨_, (below history).not_mem, by rw [ofHistory_concat, handle]⟩
  clone history i := by rw [ofHistory_concat, handle]
  change history i change := by
    rw [ofHistory_concat]
    exact pointers_write (below history) i change
  drop history i := by rw [ofHistory_concat, handle]

/-- A change through a handle is seen through that handle alone. -/
theorem held?_write (below : s.pointers.Below s.next) (i : Nat) (change : Rearrangement)
    (j : Nat) : (s.write i change).held? j =
      if j = i then (s.held? i).map (·.rearrange change) else s.held? j := by
  unfold held?
  cases there : s.pointers.at? i with
  | none =>
    rw [write_of_gone there]
    split
    · rename_i same
      rw [same, there]
      rfl
    · rfl
  | some a =>
    by_cases shared : some a ∈ s.pointers.set i none
    · rw [write_of_shared there shared]
      dsimp only
      rw [Slots.at?_set fun none => by cases there.symm.trans none]
      split
      · simp
      · -- No other handle points at the new address.
        cases other : s.pointers.at? j with
        | none => rfl
        | some b =>
          have old := Nat.ne_of_lt (below b (Slots.some_mem_iff.mpr ⟨j, other⟩))
          simp [Function.update_of_ne old]
    · rw [write_of_unshared there shared]
      dsimp only
      split
      · rename_i same
        rw [same, there]
        simp
      · rename_i differs
        cases other : s.pointers.at? j with
        | none => rfl
        | some b =>
          have apart : b ≠ a := by
            rintro rfl
            refine shared (Slots.some_mem_iff.mpr ⟨j, ?_⟩)
            rw [Slots.at?_set_none, if_neg differs, other]
          simp [Function.update_of_ne apart]

/-- Handles onto snapshots answer as if each had a registry of its own. -/
theorem held?_ofHistory (history : List Handling) (i : Nat) :
    (ofHistory history).held? i = (Copies.ofHistory history).at? i := by
  induction history using List.reverseRecOn generalizing i with
  | nil => rfl
  | append_singleton history handling ih =>
    have shape := (labelling.same_shape history).1
    rw [ofHistory_concat, Copies.ofHistory_concat]
    cases handling with
    | make r =>
      simp only [handle, Copies.handle, held?, Slots.at?_concat, shape]
      split
      · simp
      · rw [← ih, held?]
        cases there : (ofHistory history).pointers.at? i with
        | none => rfl
        | some a =>
          have old := Nat.ne_of_lt (below history a (Slots.some_mem_iff.mpr ⟨i, there⟩))
          simp [Function.update_of_ne old]
    | clone m =>
      simp only [handle, Copies.handle, held?, Slots.at?_concat, shape]
      split
      · exact ih m
      · exact ih i
    | change m change =>
      rw [handle, Copies.handle, held?_write (below history), Slots.at?_set_map, ih, ih]
    | drop m =>
      simp only [handle, Copies.handle, held?, Slots.at?_set_none]
      split
      · rfl
      · exact ih i

end Snapshots

/-- Whatever is done with handles onto registries: each answers as if every clone had been a copy of
the whole registry, so that no change through one is seen through another; and two of them share a
snapshot exactly when they come by cloning from one handle and neither has been changed since, even
by a change that changes nothing. The same holds of handles that are told apart by their stamps. -/
theorem handles_are_independent (history : List Handling) (i j : Nat) :
    let snapshots := Snapshots.ofHistory history
    let handles := Handles.ofHistory history
    let copies := Copies.ofHistory history
    snapshots.held? i = copies.at? i ∧ handles.held? i = copies.at? i ∧
      (∀ change, i ≠ j → (snapshots.handle (.change i change)).held? j =
        snapshots.held? j) ∧
      (snapshots.Shares i j ↔ Kin history i j) ∧ (handles.Shares i j ↔ Kin history i j) := by
  intro snapshots handles copies
  refine ⟨Snapshots.held?_ofHistory history i, Handles.held?_ofHistory history i,
    fun change differs => ?_, Snapshots.labelling.same_iff_kin history i j, ?_⟩
  · rw [Snapshots.handle, Snapshots.held?_write (Snapshots.below history),
      if_neg (Ne.symm differs)]
  · rw [Handles.shares_iff]
    exact Handles.labelling.same_iff_kin history i j

/-- A parent that is changed first leaves the snapshot to its child. -/
theorem handles_are_independent_parent :
    let snapshots := Snapshots.ofHistory [.make .withBuiltins, .clone 0]
    snapshots.Shares 0 1 ∧
      (snapshots.handle (.change 0 (.disable "time"))).held? 1 = some .withBuiltins := by
  have independent := handles_are_independent [.make .withBuiltins, .clone 0] 0 1
  refine ⟨⟨0, rfl, rfl⟩, ?_⟩
  rw [independent.2.2.1 (.disable "time") (by decide)]
  rfl

end GoalScript
