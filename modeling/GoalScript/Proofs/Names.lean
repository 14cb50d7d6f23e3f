import GoalScript.Proofs.Reading

namespace GoalScript

namespace Plan

variable {raw : List Char} {plan : Plan}

theorem splitFrom_ne_nil (separator : Char) (n : Nesting) (s : List Char) :
    splitFrom separator n s ≠ [] := by
  cases s with
  | nil => simp [splitFrom]
  | cons c rest =>
    unfold splitFrom
    split
    · simp
    · split <;> simp

/-- A text without separators outside brackets and quotes is its only piece. -/
theorem splitFrom_eq_singleton {separator : Char} {n : Nesting} {s piece : List Char}
    (h : splitFrom separator n s = [piece]) : piece = s := by
  induction s generalizing n piece with
  | nil =>
    cases h
    rfl
  | cons c rest ih =>
    unfold splitFrom at h
    split at h
    · exact absurd (List.cons.inj h).2 (splitFrom_ne_nil _ _ _)
    · split at h
      · rename_i first pieces split
        obtain ⟨rfl, rfl⟩ := List.cons.inj h
        rw [ih split]
      · rename_i split
        exact absurd split (splitFrom_ne_nil _ _ _)

theorem brackets_eq_nil {rest : List Char} (h : brackets raw rest = .ok []) :
    Text.trimLeft rest = [] := by
  unfold brackets at h
  split at h
  · assumption
  · split at h
    · cases h
    · obtain ⟨i, -, h⟩ := Resolved.bind_eq_ok.mp h
      obtain ⟨more, -, h⟩ := Resolved.bind_eq_ok.mp h
      cases h
  · cases h

/-- What is left of a name is nothing or starts with a bracket. -/
theorem splitName_of_blank {token : List Char} (blank : Text.trimLeft (splitName token).2 = []) :
    splitName token = (token, []) := by
  have whole := List.takeWhile_append_dropWhile (p := (· != '[')) (l := token)
  cases rest : token.dropWhile (· != '[') with
  | nil =>
    rw [rest, List.append_nil] at whole
    rw [splitName, rest, whole]
  | cons c rest' =>
    have opened : c = '[' := by
      have head := List.head?_dropWhile_not (· != '[') token
      rw [rest] at head
      simpa using head
    rw [splitName, rest, opened] at blank
    simp [Text.trimLeft, Text.isBlank, Text.within, Text.blankSpans] at blank

/-- A token that is not empty leads somewhere. -/
theorem token_eq_nil {token : List Char} (h : Plan.token raw token = .ok []) : token = [] := by
  unfold Plan.token at h
  split at h
  · split at h
    · cases h
    · obtain ⟨more, -, h⟩ := Resolved.bind_eq_ok.mp h
      cases h
  · split at h
    · cases hp : position raw token with
      | error e =>
        rw [hp] at h
        cases h
      | ok n =>
        rw [hp] at h
        cases h
    · dsimp only at h
      cases hb : brackets raw (splitName token).2 with
      | error e =>
        rw [hb] at h
        cases h
      | ok more =>
        rw [hb] at h
        obtain ⟨unnamed, rfl⟩ := List.append_eq_nil_iff.mp (Except.ok.inj h)
        have split := splitName_of_blank (brackets_eq_nil hb)
        rw [split] at unnamed
        cases token with
        | nil => rfl
        | cons c rest => simp at unnamed

/-- No segments are read only where there are no tokens. -/
theorem tokens_eq_nil {tokens : List (List Char)} (h : Plan.tokens raw tokens = .ok []) :
    tokens = [] := by
  cases tokens with
  | nil => rfl
  | cons first rest =>
    unfold Plan.tokens at h
    dsimp only at h
    split at h
    · cases h
    · rename_i some
      split at h
      · cases h
      · split at h
        · cases h
        · obtain ⟨now, one, h⟩ := Resolved.bind_eq_ok.mp h
          obtain ⟨more, -, h⟩ := Resolved.bind_eq_ok.mp h
          obtain ⟨rfl, rfl⟩ := List.append_eq_nil_iff.mp (Except.ok.inj h)
          rw [token_eq_nil one] at some
          exact absurd rfl some

/-- A path that leads to no part of its root is the name of the root, and nothing divides it. -/
theorem path_eq_root {path : List Char} {root : String} (h : Plan.path raw path = .ok (root, [])) :
    splitTop '.' path = [path] ∧ splitName path = (path, []) ∧
      root = String.ofList (translateEscapes path) := by
  unfold Plan.path at h
  split at h
  · cases h
  · rename_i first rest pieces
    dsimp only at h
    split at h
    · cases h
    · split at h
      · cases h
      · obtain ⟨indexes, one, h⟩ := Resolved.bind_eq_ok.mp h
        obtain ⟨more, later, h⟩ := Resolved.bind_eq_ok.mp h
        obtain ⟨named, none⟩ := Prod.mk.inj (Except.ok.inj h)
        obtain ⟨rfl, rfl⟩ := List.append_eq_nil_iff.mp none
        obtain rfl := tokens_eq_nil later
        obtain rfl := splitFrom_eq_singleton pieces
        have plain := splitName_of_blank (brackets_eq_nil one)
        exact ⟨pieces, plain, by rw [← named, plain]⟩

/-- The expression names a variable: it goes to no part of it and calculates nothing. -/
structure Names (name : String) (plan : Plan) : Prop where
  parsed : Plan.parse name = .ok plan
  whole : plan.segments = []
  plain : plan.arithmetic = none
  free : ¬ plan.IsReserved

/-- A name is stored under the key that it is looked up by. -/
theorem Names.variableKey_eq {name : String} (h : Names name plan) :
    variableKey name = plan.key := by
  obtain ⟨left, read, ⟨-, -, rfl⟩ | ⟨a, calculated, -⟩⟩ := parse_cases h.parsed
  · rw [h.whole] at read
    rw [variableKey, Plan.key, (path_eq_root read).2.2]
  · rw [h.plain] at calculated
    cases calculated

end Plan

end GoalScript
