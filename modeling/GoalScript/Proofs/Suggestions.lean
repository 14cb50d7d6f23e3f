import GoalScript.Proofs.EditDistance
import Mathlib.Data.List.Induction

namespace GoalScript

namespace Text

theorem lowerLetter_ne_nil (c : Char) : lowerLetter c ≠ [] := by
  unfold lowerLetter
  split
  · simp
  · split
    · simp
    · split <;> simp

theorem lower_eq_nil_iff {s : List Char} : lower s = [] ↔ s = [] := by
  constructor
  · intro h
    cases s with
    | nil => rfl
    | cons c rest =>
      rw [lower, lowerAfter, List.append_eq_nil_iff] at h
      have first := h.1
      split at first
      · split at first <;> cases first
      · exact absurd first (lowerLetter_ne_nil c)
  · intro h
    rw [h]
    rfl

end Text

namespace Suggestion

/-- How far a candidate counts as from a name, if it counts at all: as far as it is within a limit,
and at the limit if it is beyond but one of the two texts begins the other. -/
inductive Counts (limit : Nat) (name candidate : List Char) : Nat → Prop where
  | near {d : Nat} (least : IsLeast {n | Edits n name candidate} d) (within : d ≤ limit) :
      Counts limit name candidate d
  | begun {d : Nat} (least : IsLeast {n | Edits n name candidate} d) (beyond : limit < d)
      (begins : name <+: candidate ∨ candidate <+: name) : Counts limit name candidate limit

/-- The candidate is the first in the list of those that count as nearest. -/
structure FirstLeast (ranks : String → Nat → Prop) (candidates : List String) (known : String)
    (least : Nat) : Prop where
  ranked : ranks known least
  first : ∃ i : Nat, candidates[i]? = some known ∧ ∀ (j : Nat) (other : String) (d : Nat),
    candidates[j]? = some other → ranks other d → least ≤ d ∧ (j < i → least < d)

variable {name candidate : List Char} {d : Nat}

/-- The distance within reach is told by edits alone. -/
theorem effective?_eq_some_iff :
    effective? name candidate = some d ↔ Counts (max 2 (name.length / 3)) name candidate d := by
  have least := distance_isLeast name candidate
  have limit : reach name = max 2 (name.length / 3) := Nat.max_comm _ _
  unfold effective?
  rw [limit]
  constructor
  · intro counted
    dsimp only at counted
    split at counted
    · rename_i within
      cases counted
      exact .near least within
    · rename_i beyond
      split at counted
      · rename_i begins
        cases counted
        simp only [Bool.or_eq_true, List.isPrefixOf_iff_prefix] at begins
        exact .begun least (Nat.lt_of_not_le beyond) begins
      · cases counted
  · intro counted
    dsimp only
    cases counted with
    | near least' within =>
      obtain rfl := least.unique least'
      rw [if_pos within]
    | begun least' beyond begins =>
      obtain rfl := least.unique least'
      have begins' : (name.isPrefixOf candidate || candidate.isPrefixOf name) = true := by
        simpa only [Bool.or_eq_true, List.isPrefixOf_iff_prefix] using begins
      rw [if_neg (Nat.not_le_of_lt beyond), if_pos begins']

/-- What a candidate counts as in the search for a name in lower case. -/
def Ranks (name : List Char) (candidate : String) (d : Nat) : Prop :=
  Counts (max 2 (name.length / 3)) name (Text.lower candidate.toList) d

theorem ranks_iff {known : String} :
    Ranks name known d ↔ effective? name (Text.lower known.toList) = some d :=
  effective?_eq_some_iff.symm

theorem Ranks.unique {known : String} {d' : Nat} (h : Ranks name known d)
    (h' : Ranks name known d') : d = d' :=
  Option.some.inj ((ranks_iff.mp h).symm.trans (ranks_iff.mp h'))

section

variable {known new : String} {candidates : List String} {least : Nat}

theorem FirstLeast.unique {known' : String} {least' : Nat} {ranks : String → Nat → Prop}
    (h : FirstLeast ranks candidates known least)
    (h' : FirstLeast ranks candidates known' least') : known = known' := by
  obtain ⟨i, here, first⟩ := h.first
  obtain ⟨i', here', first'⟩ := h'.first
  have one := first i' known' least' here' h'.ranked
  have other := first' i known least here h.ranked
  rcases Nat.lt_trichotomy i i' with before | same | after
  · have nearer := other.2 before
    omega
  · rw [same, here'] at here
    exact (Option.some.inj here).symm
  · have nearer := one.2 after
    omega

theorem FirstLeast.mem {ranks : String → Nat → Prop}
    (h : FirstLeast ranks candidates known least) : known ∈ candidates := by
  obtain ⟨i, here, -⟩ := h.first
  exact List.mem_of_getElem? here

theorem old_or_new_of_getElem? {j : Nat} {other : String}
    (there : (candidates ++ [new])[j]? = some other) :
    candidates[j]? = some other ∨ j = candidates.length ∧ other = new := by
  rcases Nat.lt_or_ge j candidates.length with old | beyond
  · rw [List.getElem?_append_left old] at there
    exact .inl there
  · rw [List.getElem?_append_right beyond, List.getElem?_singleton] at there
    split at there
    · cases there
      exact .inr ⟨by omega, rfl⟩
    · cases there

/-- A candidate that is no nearer, or does not count at all, changes nothing. -/
theorem FirstLeast.concat (h : FirstLeast (Ranks name) candidates known least)
    (farther : ∀ d, Ranks name new d → least ≤ d) :
    FirstLeast (Ranks name) (candidates ++ [new]) known least := by
  obtain ⟨i, here, first⟩ := h.first
  have inside : i < candidates.length := (List.getElem?_eq_some_iff.mp here).1
  refine ⟨h.ranked, i, by rw [List.getElem?_append_left inside, here], ?_⟩
  intro j other d there ranked
  obtain old | ⟨rfl, rfl⟩ := old_or_new_of_getElem? there
  · exact first j other d old ranked
  · exact ⟨farther d ranked, fun before => absurd before (Nat.lt_asymm inside)⟩

/-- A candidate that is nearer than all before it is the first of the nearest. -/
theorem firstLeast_concat (ranked : Ranks name new d)
    (nearer : ∀ other ∈ candidates, ∀ least, Ranks name other least → d < least) :
    FirstLeast (Ranks name) (candidates ++ [new]) new d := by
  refine ⟨ranked, candidates.length, by simp, ?_⟩
  intro j other d' there ranked'
  obtain old | ⟨rfl, rfl⟩ := old_or_new_of_getElem? there
  · have less := nearer other (List.mem_of_getElem? old) d' ranked'
    exact ⟨Nat.le_of_lt less, fun _ => less⟩
  · exact ⟨(ranked.unique ranked').le, fun before => absurd before (Nat.lt_irrefl _)⟩

theorem FirstLeast.le_of_mem (h : FirstLeast (Ranks name) candidates known least)
    (mem : new ∈ candidates) (ranked : Ranks name new d) : least ≤ d := by
  obtain ⟨i, -, first⟩ := h.first
  obtain ⟨j, there⟩ := List.getElem?_of_mem mem
  exact (first j new d there ranked).1

def Found (name : List Char) (candidates : List String) : Option (Nat × String) → Prop
  | none => ∀ known ∈ candidates, ∀ d, ¬ Ranks name known d
  | some (least, known) => FirstLeast (Ranks name) candidates known least

/-- One more candidate is taken if it counts as nearer than the best before it. -/
theorem Found.better {best : Option (Nat × String)} (h : Found name candidates best)
    (new : String) : Found name (candidates ++ [new]) (better name best new) := by
  unfold Suggestion.better
  cases reached : effective? name (Text.lower new.toList) with
  | none =>
    have uncounted (d : Nat) : ¬ Ranks name new d := by
      rw [ranks_iff, reached]
      simp
    cases best with
    | none =>
      intro known mem d ranked
      rcases List.mem_append.mp mem with old | last
      · exact h known old d ranked
      · rw [List.mem_singleton.mp last] at ranked
        exact uncounted d ranked
    | some found => exact FirstLeast.concat h fun d ranked => absurd ranked (uncounted d)
  | some d =>
    have ranked : Ranks name new d := ranks_iff.mpr reached
    cases best with
    | none =>
      exact firstLeast_concat ranked fun known mem least old => absurd old (h known mem least)
    | some found =>
      obtain ⟨least, known⟩ := found
      dsimp only
      split
      · rename_i near
        exact FirstLeast.concat h fun d' ranked' => ranked.unique ranked' ▸ near
      · rename_i far
        refine firstLeast_concat ranked fun other mem d' old => ?_
        have held := FirstLeast.le_of_mem h mem old
        omega

/-- The search finds the first of the nearest. -/
theorem found_foldl (name : List Char) (candidates : List String) :
    Found name candidates (candidates.foldl (better name) none) := by
  induction candidates using List.reverseRecOn with
  | nil => exact fun known mem => absurd mem List.not_mem_nil
  | append_singleton candidates new ih =>
    rw [List.foldl_append]
    exact ih.better new

end

theorem nearest?_empty (candidates : List String) : nearest? "" candidates = none := rfl

theorem nearest?_of_ne_empty {name : String} (named : name ≠ "") (candidates : List String) :
    nearest? name candidates =
      (candidates.foldl (better (Text.lower name.toList)) none).map Prod.snd := by
  have full : Text.lower name.toList ≠ [] := by
    rwa [Ne, Text.lower_eq_nil_iff, String.toList_eq_nil_iff]
  unfold nearest?
  dsimp only
  rw [if_neg (by simpa using full)]

section

variable {name : String} {candidates : List String}

theorem nearest?_eq_none_iff (named : name ≠ "") :
    nearest? name candidates = none ↔
      ∀ known ∈ candidates, ∀ d, ¬ Ranks (Text.lower name.toList) known d := by
  have found := found_foldl (Text.lower name.toList) candidates
  rw [nearest?_of_ne_empty named, Option.map_eq_none_iff]
  cases best : candidates.foldl (better (Text.lower name.toList)) none with
  | none =>
    rw [best] at found
    exact ⟨fun _ => found, fun _ => rfl⟩
  | some pair =>
    rw [best] at found
    constructor
    · intro absent
      cases absent
    · intro uncounted
      exact absurd found.ranked (uncounted pair.2 found.mem pair.1)

theorem nearest?_eq_some_iff (named : name ≠ "") {known : String} :
    nearest? name candidates = some known ↔
      ∃ least, FirstLeast (Ranks (Text.lower name.toList)) candidates known least := by
  have found := found_foldl (Text.lower name.toList) candidates
  rw [nearest?_of_ne_empty named]
  cases best : candidates.foldl (better (Text.lower name.toList)) none with
  | none =>
    rw [best] at found
    constructor
    · intro absent
      cases absent
    · intro ⟨least, first⟩
      exact absurd first.ranked (found known first.mem least)
  | some pair =>
    rw [best] at found
    constructor
    · intro same
      cases same
      exact ⟨pair.1, found⟩
    · intro ⟨least, first⟩
      exact congrArg some (FirstLeast.unique found first)

end

/-- Letter case aside, the name suggested for another is the first of those that the fewest edits
lead to, of which there may be a third as many as it has characters, or two; a text that begins with
it, or that it begins with, counts as just within that. There is none only for an empty name, and
where no candidate counts. -/
theorem suggestions_are_nearest (name : String) (candidates : List String) :
    let needle := Text.lower name.toList
    let limit := max 2 (needle.length / 3)
    let ranks (candidate : String) (d : Nat) : Prop :=
      Counts limit needle (Text.lower candidate.toList) d
    (nearest? name candidates = none ↔
      name = "" ∨ ∀ candidate ∈ candidates, ∀ d, ¬ ranks candidate d) ∧
    ∀ known, nearest? name candidates = some known ↔
      name ≠ "" ∧ ∃ least, FirstLeast ranks candidates known least := by
  intro needle limit ranks
  by_cases empty : name = ""
  · rw [empty, nearest?_empty]
    simp
  · constructor
    · rw [nearest?_eq_none_iff empty]
      simp only [empty, false_or]
      rfl
    · intro known
      rw [nearest?_eq_some_iff empty]
      simp only [ne_eq, empty, not_false_eq_true, true_and]
      rfl

/-- Two edits lead from a misspelt name to each of two candidates. -/
theorem suggestions_are_nearest_tie :
    ∃ least, FirstLeast (fun known d => Counts 2 "lenght".toList (Text.lower known.toList) d)
      ["Count", "Length", "Weight"] "Length" least :=
  (((suggestions_are_nearest "Lenght" _).2 "Length").mp (by decide)).2

end Suggestion

end GoalScript
