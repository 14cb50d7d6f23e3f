import GoalScript.Proofs.Queries

namespace GoalScript

namespace Plan

variable {raw other : List Char} {segments : List Segment}

/-- At a point outside brackets and quotes a text is cut in two. -/
theorem splitFrom_divided {n : Nesting} {before : List Char} (outside : n.after before = {})
    (t : List Char) : splitFrom '.' n (before ++ '.' :: t) =
      splitFrom '.' n before ++ splitTop '.' t := by
  induction before generalizing n with
  | nil =>
    cases outside
    exact splitFrom_separator rfl
  | cons c before ih =>
    by_cases here : n.isOutside = true ∧ c = '.'
    · obtain ⟨out, rfl⟩ := here
      obtain rfl := Nesting.eq_of_isOutside out
      have later : splitFrom '.' {} (before ++ '.' :: t) =
          splitFrom '.' {} before ++ splitTop '.' t := ih outside
      rw [List.cons_append, splitFrom_separator out, splitFrom_separator out, later]
      rfl
    · have passed : n.isOutside = true → c ≠ '.' := fun out same => here ⟨out, same⟩
      obtain ⟨first, rest, split⟩ :=
        List.exists_cons_of_ne_nil (splitFrom_ne_nil '.' (n.next c) before)
      rw [List.cons_append, splitFrom_cons passed, splitFrom_cons passed, ih outside, split]
      rfl

variable {text after last : List Char} {front : List (List Char)}

/-- A text is its only piece, or its last one stands behind a point. -/
theorem splitTop_cases (h : splitTop '.' text = front ++ [last]) : Hides (· = '.') {} last ∧
    (front = [] ∧ last = text ∨
      ∃ before, text = before ++ '.' :: last ∧ Nesting.after {} before = {} ∧
        splitTop '.' before = front) := by
  rcases hides_or_last (· = '.') {} text with hidden | ⟨before, c, back, rfl, rfl, outside, hidden⟩
  · rw [splitTop_of_hides hidden, ← List.nil_append [text]] at h
    obtain ⟨rfl, ends⟩ := List.append_inj' h rfl
    obtain rfl := List.singleton_inj.mp ends
    exact ⟨hidden, .inl ⟨rfl, rfl⟩⟩
  · rw [splitTop, splitFrom_divided outside, splitTop_of_hides hidden] at h
    obtain ⟨rfl, ends⟩ := List.append_inj' h rfl
    obtain rfl := List.singleton_inj.mp ends
    exact ⟨hidden, .inr ⟨before, rfl, outside, rfl⟩⟩

/-- What stands behind a text goes to its last piece. -/
theorem splitTop_concat (plain : '.' ∉ after) (h : splitTop '.' text = front ++ [last]) :
    splitTop '.' (text ++ after) = front ++ [last ++ after] := by
  obtain ⟨hidden, ⟨rfl, rfl⟩ | ⟨before, rfl, outside, rfl⟩⟩ := splitTop_cases h
  all_goals
    have longer : Hides (· = '.') {} (last ++ after) :=
      hides_append.mpr ⟨hidden, hides_of_forall_not fun c mem same => plain (same ▸ mem)⟩
  · rw [splitTop_of_hides longer, List.nil_append]
  · rw [List.append_assoc, List.cons_append, splitTop, splitFrom_divided outside,
      splitTop_of_hides longer]
    rfl

/-- The pieces before the last one are those of the text before it. -/
theorem splitTop_front (h : splitTop '.' text = front ++ [last]) (some : front ≠ []) :
    splitTop '.' (joinTop '.' front) = front := by
  obtain ⟨-, ⟨rfl, -⟩ | ⟨before, -, -, rfl⟩⟩ := splitTop_cases h
  · exact absurd rfl some
  · exact congrArg (splitTop '.') (joinTop_splitFrom '.' {} before)

theorem position_of_ok {digits : List Char} {i : Nat} (h : position raw digits = .ok i) :
    position other digits = .ok i := by
  unfold position at h ⊢
  dsimp only at h ⊢
  split at h
  · cases h
  · rename_i some
    rw [if_neg some]
    split at h
    · rename_i fits
      rw [if_pos fits]
      exact h
    · cases h

theorem index_of_ok {inner : List Char} {i : Index} (h : index raw inner = .ok i) :
    index other inner = .ok i := by
  unfold index at h ⊢
  split at h
  · cases h
  · rename_i some
    rw [if_neg some]
    split at h
    · rename_i digits
      obtain ⟨n, read, rfl⟩ := Resolved.map_eq_ok.mp h
      rw [if_pos digits, position_of_ok read]
      rfl
    · rename_i digits
      rw [if_neg digits]
      split at h <;> exact h

theorem brackets_of_ok {rest : List Char} (h : brackets raw rest = .ok segments) :
    brackets other rest = .ok segments := by
  fun_induction brackets raw rest generalizing segments with
  | case1 rest blank =>
    rw [brackets]
    split <;> simp_all
  | case2 => cases h
  | case3 rest inside opened c after closed ih =>
    obtain ⟨i, first, h⟩ := Resolved.bind_eq_ok.mp h
    obtain ⟨more, later, h⟩ := Resolved.bind_eq_ok.mp h
    cases h
    rw [brackets]
    split
    · simp_all
    · rename_i opened'
      obtain ⟨-, rfl⟩ := List.cons.inj (opened.symm.trans opened')
      split
      · simp_all
      · rename_i closed'
        obtain ⟨-, rfl⟩ := List.cons.inj (closed.symm.trans closed')
        rw [index_of_ok first, ih later]
        rfl
    · simp_all
  | case4 => cases h

/-- What is read does not hang on the expression that errors show. -/
theorem token_of_ok {text : List Char} (h : token raw text = .ok segments) :
    token other text = .ok segments := by
  unfold token at h ⊢
  split at h
  · split at h
    · cases h
    · obtain ⟨more, later, h⟩ := Resolved.bind_eq_ok.mp h
      rw [brackets_of_ok later]
      exact h
  · split at h
    · rename_i digits
      obtain ⟨n, read, rfl⟩ := Resolved.map_eq_ok.mp h
      rw [if_pos digits, position_of_ok read]
      rfl
    · rename_i digits
      obtain ⟨more, later, rfl⟩ := Resolved.map_eq_ok.mp h
      rw [if_neg digits]
      dsimp only [splitName]
      rw [brackets_of_ok later]
      rfl

def QueryFree (segments : List Segment) : Prop := ∀ path, .query path ∉ segments

structure IsStep (token : List Char) : Prop where
  present : token.isEmpty = false
  undollared : (token.head? == some '$') = false
  unqueried : isQueryToken token = false

/-- What does not begin with a dollar sign is no query by that. -/
theorem isStep_of_begins {token : List Char} (begins : ∃ c ∈ token.head?, c ≠ '$')
    (unasked : isQueryToken token = false) : IsStep token := by
  refine ⟨by simpa using Text.ne_nil_of_head begins, ?_, unasked⟩
  obtain ⟨c, head, other⟩ := begins
  simpa [Option.mem_def.mp head] using other

/-- The tokens stand for these groups of segments, each for one. -/
def Grouped (texts : List (List Char)) (groups : List (List Segment)) : Prop :=
  List.Forall₂ (fun text group => IsStep text ∧ token text text = .ok group) texts groups

theorem tokens_cons {first : List Char} (step : IsStep first) (rest : List (List Char)) :
    tokens raw (first :: rest) = do return (← token raw first) ++ (← tokens raw rest) := by
  simp only [tokens, step.present, step.undollared, step.unqueried, Bool.false_eq_true, if_false]

theorem isStep_of_tokens {first : List Char} {rest : List (List Char)}
    (free : QueryFree segments) (h : tokens raw (first :: rest) = .ok segments) :
    IsStep first := by
  unfold tokens at h
  dsimp only at h
  have asks {path : List Char} (h : (.ok [query path] : Parsed (List Segment)) = .ok segments) :
      False := by
    cases h
    exact free _ List.mem_cons_self
  split at h
  · exact (asks h).elim
  · rename_i present
    split at h
    · exact (asks h).elim
    · rename_i undollared
      split at h
      · exact (asks h).elim
      · rename_i unqueried
        exact ⟨by simpa using present, by simpa using undollared, by simpa using unqueried⟩

/-- Tokens without queries are read one by one. -/
theorem tokens_of_grouped {texts : List (List Char)} {groups : List (List Segment)}
    (grouped : Grouped texts groups) : tokens raw texts = .ok groups.flatten := by
  induction grouped with
  | nil => rfl
  | cons first _ ih =>
    rw [tokens_cons first.1, token_of_ok first.2, ih]
    rfl

theorem grouped_of_tokens {texts : List (List Char)} (free : QueryFree segments)
    (h : tokens raw texts = .ok segments) :
    ∃ groups, Grouped texts groups ∧ segments = groups.flatten := by
  induction texts generalizing segments with
  | nil =>
    cases h
    exact ⟨[], .nil, rfl⟩
  | cons first rest ih =>
    have step := isStep_of_tokens free h
    rw [tokens_cons step] at h
    obtain ⟨group, one, h⟩ := Resolved.bind_eq_ok.mp h
    obtain ⟨more, later, h⟩ := Resolved.bind_eq_ok.mp h
    cases h
    obtain ⟨groups, grouped, rfl⟩ := ih (fun path mem => free path (by simp [mem])) later
    exact ⟨group :: groups, .cons ⟨step, token_of_ok one⟩ grouped, rfl⟩

/-- The text is a root with indexes behind it, and then tokens for these groups of segments. -/
structure Laid (text first : List Char) (rest : List (List Char)) (root : String)
    (indexes : List Segment) (groups : List (List Segment)) : Prop where
  split : splitTop '.' text = first :: rest
  named : (splitName first).1.isEmpty = false
  unqueried : isQueryToken (splitName first).2 = false
  root_eq : root = String.ofList (translateEscapes (splitName first).1)
  indexed : brackets text (splitName first).2 = .ok indexes
  grouped : Grouped rest groups

theorem Laid.path_eq {text first : List Char} {rest : List (List Char)} {root : String}
    {indexes : List Segment} {groups : List (List Segment)}
    (laid : Laid text first rest root indexes groups) :
    path raw text = .ok (root, indexes ++ groups.flatten) := by
  unfold path
  rw [laid.split]
  simp only [laid.named, laid.unqueried, Bool.false_eq_true, if_false, laid.root_eq,
    brackets_of_ok laid.indexed, tokens_of_grouped laid.grouped]
  rfl

/-- A path without queries is laid out as a root with indexes and tokens for groups of segments. -/
theorem laid_of_path {text : List Char} {root : String} (free : QueryFree segments)
    (h : path raw text = .ok (root, segments)) :
    ∃ first rest indexes groups, Laid text first rest root indexes groups ∧
      segments = indexes ++ groups.flatten := by
  unfold path at h
  split at h
  · cases h
  · rename_i first rest split
    dsimp only at h
    split at h
    · cases h
    · rename_i named
      split at h
      · cases h
        exact (free _ List.mem_cons_self).elim
      · rename_i unqueried
        obtain ⟨indexes, one, h⟩ := Resolved.bind_eq_ok.mp h
        obtain ⟨more, later, h⟩ := Resolved.bind_eq_ok.mp h
        cases h
        obtain ⟨groups, grouped, rfl⟩ :=
          grouped_of_tokens (fun path mem => free path (List.mem_append_right _ mem)) later
        exact ⟨first, rest, indexes, groups, ⟨split, by simpa using named,
          by simpa using unqueried, rfl, brackets_of_ok one, grouped⟩, rfl⟩

section

variable {text first : List Char} {rest : List (List Char)} {root : String}
  {indexes : List Segment} {groups : List (List Segment)}

theorem Laid.length_root_le_name (laid : Laid text first rest root indexes groups) :
    root.toList.length ≤ (splitName first).1.length := by
  rw [laid.root_eq, String.toList_ofList]
  exact length_translateEscapes_le _

/-- The root is no longer than the text. -/
theorem Laid.length_root_le (laid : Laid text first rest root indexes groups) :
    root.toList.length ≤ text.length := by
  have named : (splitName first).1.length ≤ first.length := (List.takeWhile_prefix _).length_le
  have piece : first ∈ splitTop '.' text := laid.split ▸ List.mem_cons_self
  exact (laid.length_root_le_name.trans named).trans (length_le_of_mem_splitFrom piece)

end

/-- The last of several tokens stands for the last group of segments. -/
theorem Grouped.exists_concat {texts : List (List Char)} {last : List Char}
    {groups : List (List Segment)} (grouped : Grouped (texts ++ [last]) groups) :
    ∃ before group, groups = before ++ [group] ∧ Grouped texts before ∧ IsStep last ∧
      token last last = .ok group := by
  induction texts generalizing groups with
  | nil =>
    obtain _ | ⟨⟨step, read⟩, ⟨⟩⟩ := grouped
    exact ⟨[], _, rfl, .nil, step, read⟩
  | cons text texts ih =>
    obtain _ | ⟨first, later⟩ := grouped
    obtain ⟨before, group, rfl, front, step, read⟩ := ih later
    exact ⟨_ :: before, group, rfl, .cons first front, step, read⟩

end Plan

end GoalScript
