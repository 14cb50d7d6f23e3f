import GoalScript.Proofs.Shrinking

namespace GoalScript

namespace Text

variable {part replacement s : List Char}

theorem splitFrom_eq_drop (separator : List Char) (skip : Nat) (s : List Char) :
    splitFrom separator skip s = splitFrom separator 0 (s.drop skip) := by
  induction s generalizing skip with
  | nil => simp [splitFrom]
  | cons c rest ih =>
    cases skip with
    | zero => rfl
    | succ skip =>
      rw [splitFrom, if_pos (Nat.succ_pos skip), Nat.add_sub_cancel, ih, List.drop_succ_cons]

theorem replace_eq (some : part ≠ []) (replacement s : List Char) :
    replace part replacement s = replacement.intercalate (splitFrom part 0 s) := by
  have full : part.isEmpty = false := by simpa using some
  simp [replace, splitOn, full]

theorem replace_nil (some : part ≠ []) (replacement : List Char) :
    replace part replacement [] = [] := by
  simp [replace_eq some, splitFrom]

/-- A character that does not begin an occurrence stays. -/
theorem replace_cons {c : Char} (some : part ≠ []) (none : ¬ part <+: c :: s) :
    replace part replacement (c :: s) = c :: replace part replacement s := by
  have begins : part.isPrefixOf (c :: s) = false := by
    simpa [← List.isPrefixOf_iff_prefix] using none
  rw [replace_eq some, replace_eq some, splitFrom, if_neg (Nat.lt_irrefl 0), begins,
    if_neg Bool.false_ne_true]
  split
  · rename_i piece pieces split
    rw [split]
    cases pieces <;> simp [List.intercalate_cons_cons]
  · rename_i empty
    exact absurd empty (splitFrom_ne_nil _ _ _)

theorem replace_append (some : part ≠ []) (replacement s : List Char) :
    replace part replacement (part ++ s) = replacement ++ replace part replacement s := by
  obtain ⟨c, part, rfl⟩ := List.exists_cons_of_ne_nil some
  have begins : (c :: part).isPrefixOf (c :: (part ++ s)) = true :=
    List.isPrefixOf_iff_prefix.mpr (List.prefix_append (c :: part) s)
  rw [replace_eq some, replace_eq some, List.cons_append, splitFrom, if_neg (Nat.lt_irrefl 0),
    if_pos begins, splitFrom_eq_drop, List.length_cons, Nat.add_sub_cancel, List.drop_left,
    List.intercalate_cons_of_ne_nil (splitFrom_ne_nil _ _ _), List.nil_append]

theorem contains_iff (part s : List Char) : contains s part = true ↔ part <:+: s := by
  have found (start : Nat) : (findFrom part start s).isSome = true ↔ part <:+: s := by
    induction s generalizing start with
    | nil => simp [findFrom]
    | cons c rest ih =>
      rw [findFrom, List.infix_cons_iff, ← List.isPrefixOf_iff_prefix]
      split
      · simp [*]
      · simp [*]
  exact found 0

end Text

namespace Plan

def placeholder : Char → List Char
  | '.' => "&dot;".toList
  | '[' => "&lb;".toList
  | ']' => "&rb;".toList
  | c => [c]

def separators : List Char := ['.', '[', ']']

def escapeChar (marked : List Char) (c : Char) : List Char :=
  if c ∈ marked then placeholder c else [c]

def escape (marked : List Char) (s : List Char) : List Char := s.flatMap (escapeChar marked)

/-- No placeholder occurs in the text. -/
def Literal (s : List Char) : Prop := ∀ c ∈ separators, ¬ placeholder c <:+: s

variable {marked s : List Char} {p c : Char}

@[simp] theorem escape_nil : escape marked [] = [] := rfl

@[simp] theorem escape_cons :
    escape marked (c :: s) = escapeChar marked c ++ escape marked s := rfl

theorem escapeChar_of_mem (h : c ∈ marked) : escapeChar marked c = placeholder c := if_pos h

theorem escapeChar_of_not_mem (h : c ∉ marked) : escapeChar marked c = [c] := if_neg h

theorem escape_of_disjoint (h : ∀ c ∈ s, c ∉ marked) : escape marked s = s := by
  induction s with
  | nil => rfl
  | cons c s ih =>
    obtain ⟨first, rest⟩ := List.forall_mem_cons.mp h
    rw [escape_cons, escapeChar_of_not_mem first, ih rest, List.singleton_append]

/-- The placeholders are replaced one after the other. -/
theorem translateEscapes_eq (s : List Char) :
    translateEscapes s = Text.replace (placeholder ']') [']']
      (Text.replace (placeholder '[') ['['] (Text.replace (placeholder '.') ['.'] s)) := rfl

/-- Only the first character of a placeholder is an ampersand. -/
theorem placeholder_eq (h : c ∈ separators) : ∃ name, placeholder c = '&' :: name ∧ '&' ∉ name := by
  simp only [separators, List.mem_cons, List.not_mem_nil, or_false] at h
  obtain rfl | rfl | rfl := h <;> exact ⟨_, rfl, by decide⟩

theorem placeholder_ne_nil (h : c ∈ separators) : placeholder c ≠ [] := by
  obtain ⟨name, written, -⟩ := placeholder_eq h
  simp [written]

theorem literal_of_not_mem (h : '&' ∉ s) : Literal s := by
  intro d hd found
  obtain ⟨rest, written, -⟩ := placeholder_eq hd
  exact h (found.subset (by simp [written]))

theorem literal_iff :
    Literal s ↔ (separators.all fun c => !Text.contains s (placeholder c)) = true := by
  simp only [Literal, List.all_eq_true, Bool.not_eq_true', ← Text.contains_iff, Bool.not_eq_true]

instance (s : List Char) : Decidable (Literal s) := decidable_of_iff _ literal_iff.symm

/-- What a text begins with before any ampersand has not been written by escaping. -/
theorem prefix_of_prefix_escape {t : List Char} (hm : marked ⊆ separators) (plain : '&' ∉ t)
    (h : t <+: escape marked s) : t <+: s := by
  induction t generalizing s with
  | nil => exact List.nil_prefix
  | cons x t ih =>
    simp only [List.mem_cons, not_or] at plain
    cases s with
    | nil => simp at h
    | cons c s =>
      rw [escape_cons] at h
      by_cases mark : c ∈ marked
      · rw [escapeChar_of_mem mark] at h
        obtain ⟨name, written, -⟩ := placeholder_eq (hm mark)
        rw [written, List.cons_append, List.cons_prefix_cons] at h
        exact absurd h.1.symm plain.1
      · rw [escapeChar_of_not_mem mark, List.singleton_append, List.cons_prefix_cons] at h
        exact List.cons_prefix_cons.mpr ⟨h.1, ih plain.2 h.2⟩

/-- A placeholder is no part of a different one. -/
theorem replace_placeholder (hp : p ∈ separators) (hc : c ∈ separators) (other : c ≠ p)
    (s : List Char) :
    Text.replace (placeholder p) [p] (placeholder c ++ s) =
      placeholder c ++ Text.replace (placeholder p) [p] s := by
  simp only [separators, List.mem_cons, List.not_mem_nil, or_false] at hp hc
  obtain rfl | rfl | rfl := hp <;> obtain rfl | rfl | rfl := hc <;>
    first
    | exact absurd rfl other
    | simp [placeholder, Text.replace_cons, List.cons_prefix_cons]

/-- Reading one kind of placeholder leaves the other kinds. -/
theorem replace_escape (hm : marked ⊆ separators) (hp : p ∈ separators)
    (none : ¬ placeholder p <:+: s) :
    Text.replace (placeholder p) [p] (escape marked s) = escape (marked.filter (· ≠ p)) s := by
  induction s with
  | nil => exact Text.replace_nil (placeholder_ne_nil hp) _
  | cons c s ih =>
    have rest := ih fun later => none (List.infix_cons later)
    rw [escape_cons, escape_cons]
    by_cases mark : c ∈ marked
    · by_cases same : c = p
      · subst same
        rw [escapeChar_of_mem mark, escapeChar_of_not_mem (by simp),
          Text.replace_append (placeholder_ne_nil hp), rest]
      · rw [escapeChar_of_mem mark, escapeChar_of_mem (by simp [mark, same]),
          replace_placeholder hp (hm mark) same, rest]
    · have begins : ¬ placeholder p <+: c :: escape marked s := by
        intro begins
        obtain ⟨name, written, plain⟩ := placeholder_eq hp
        rw [written, List.cons_prefix_cons] at begins
        refine none (List.IsPrefix.isInfix ?_)
        rw [written, List.cons_prefix_cons]
        exact ⟨begins.1, prefix_of_prefix_escape hm plain begins.2⟩
      rw [escapeChar_of_not_mem mark, escapeChar_of_not_mem (by simp [mark]),
        List.singleton_append, Text.replace_cons (placeholder_ne_nil hp) begins, rest]
      rfl

/-- Placeholders stand for what they were written for. -/
theorem translateEscapes_escape (hm : marked ⊆ separators) (h : Literal s) :
    translateEscapes (escape marked s) = s := by
  have sub (p : Char) {marked : List Char} (hm : marked ⊆ separators) :
      marked.filter (· ≠ p) ⊆ separators := List.Subset.trans List.filter_sublist.subset hm
  have dots := sub '.' hm
  have opens := sub '[' dots
  rw [translateEscapes_eq, replace_escape hm (by decide) (h _ (by decide)),
    replace_escape dots (by decide) (h _ (by decide)),
    replace_escape opens (by decide) (h _ (by decide)), escape_of_disjoint]
  intro c _ mark
  simp only [List.mem_filter, decide_eq_true_eq] at mark
  obtain ⟨⟨⟨mark, dot⟩, opening⟩, closing⟩ := mark
  have separates := hm mark
  simp [separators, dot, opening, closing] at separates

/-- A text without placeholders is left as it is. -/
theorem translateEscapes_of_literal (h : Literal s) : translateEscapes s = s := by
  have unmarked := translateEscapes_escape (List.nil_subset separators) h
  rwa [escape_of_disjoint fun _ _ => List.not_mem_nil] at unmarked

/-- Without ampersands there are no placeholders. -/
theorem translateEscapes_of_not_mem (h : '&' ∉ s) : translateEscapes s = s :=
  translateEscapes_of_literal (literal_of_not_mem h)

end Plan

end GoalScript
