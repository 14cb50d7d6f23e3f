import GoalScript.Suggestion
import Mathlib.Order.Bounds.Basic
import Mathlib.Order.MinMax

namespace GoalScript.Suggestion

inductive Edit : List Char → List Char → Prop where
  | insert (before after : List Char) (c : Char) : Edit (before ++ after) (before ++ c :: after)
  | delete (before after : List Char) (c : Char) : Edit (before ++ c :: after) (before ++ after)
  | substitute (before after : List Char) (c d : Char) :
      Edit (before ++ c :: after) (before ++ d :: after)

inductive Edits : Nat → List Char → List Char → Prop where
  | none (s : List Char) : Edits 0 s s
  | step {n : Nat} {s t u : List Char} (first : Edit s t) (rest : Edits n t u) : Edits (n + 1) s u

/-- The distance by what becomes of the first characters. -/
def gap : List Char → List Char → Nat
  | [], t => t.length
  | _ :: s, [] => s.length + 1
  | a :: s, b :: t =>
    min (min (gap s t + if a == b then 0 else 1) (gap s (b :: t) + 1)) (gap (a :: s) t + 1)
termination_by s t => s.length + t.length

variable {a b c d : Char} {n m : Nat} {s s' t u : List Char}

@[simp]
theorem gap_nil_left (t : List Char) : gap [] t = t.length := by rw [gap]

@[simp]
theorem gap_nil_right (s : List Char) : gap s [] = s.length := by
  cases s with
  | nil => rw [gap_nil_left]
  | cons a s => rw [gap, List.length_cons]

/-- One of the first characters is inserted or deleted, or the one is substituted for the other. -/
theorem gap_cons_cons (a b : Char) (s t : List Char) :
    gap (a :: s) (b :: t) =
      min (min (gap s t + if a == b then 0 else 1) (gap s (b :: t) + 1))
        (gap (a :: s) t + 1) := by
  rw [gap]

theorem gap_self (s : List Char) : gap s s = 0 := by
  induction s with
  | nil => rw [gap_nil_left, List.length_nil]
  | cons a s ih => simp [gap_cons_cons, ih]

theorem Edit.cons (h : Edit s t) (a : Char) : Edit (a :: s) (a :: t) := by
  cases h with
  | insert before after c => exact .insert (a :: before) after c
  | delete before after c => exact .delete (a :: before) after c
  | substitute before after c d => exact .substitute (a :: before) after c d

theorem Edit.reverse (h : Edit s t) : Edit s.reverse t.reverse := by
  cases h with
  | insert before after c => simpa using Edit.insert after.reverse before.reverse c
  | delete before after c => simpa using Edit.delete after.reverse before.reverse c
  | substitute before after c d => simpa using Edit.substitute after.reverse before.reverse c d

theorem Edits.cons (h : Edits n s t) (a : Char) : Edits n (a :: s) (a :: t) := by
  induction h with
  | none s => exact .none (a :: s)
  | step first _ ih => exact .step (first.cons a) ih

theorem Edits.reverse (h : Edits n s t) : Edits n s.reverse t.reverse := by
  induction h with
  | none s => exact .none s.reverse
  | step first _ ih => exact .step first.reverse ih

theorem edits_insert (a : Char) (h : Edits n s t) : Edits (n + 1) s (a :: t) := by
  have first : Edit s (a :: s) := .insert [] s a
  exact .step first (h.cons a)

theorem edits_delete (a : Char) (h : Edits n s t) : Edits (n + 1) (a :: s) t := by
  have first : Edit (a :: s) s := .delete [] s a
  exact .step first h

theorem edits_substitute (a b : Char) (h : Edits n s t) : Edits (n + 1) (a :: s) (b :: t) := by
  have first : Edit (a :: s) (b :: s) := .substitute [] s a b
  exact .step first (h.cons b)

/-- The distance can be reached by edits. -/
theorem edits_gap (s t : List Char) : Edits (gap s t) s t := by
  fun_induction gap s t with
  | case1 t =>
    induction t with
    | nil => exact .none []
    | cons b t ih => exact edits_insert b ih
  | case2 a s =>
    apply edits_delete a
    induction s with
    | nil => exact .none []
    | cons b s ih => exact edits_delete b ih
  | case3 a s b t substituted deleted inserted =>
    -- The least of the three numbers is one of them.
    rcases min_choice (min (gap s t + if a == b then 0 else 1) (gap s (b :: t) + 1))
      (gap (a :: s) t + 1) with least | least
    · rw [least]
      rcases min_choice (gap s t + if a == b then 0 else 1) (gap s (b :: t) + 1) with least | least
      · rw [least]
        by_cases same : a = b
        · subst same
          simpa using substituted.cons a
        · simpa [same] using edits_substitute a b substituted
      · rw [least]
        exact edits_delete a deleted
    · rw [least]
      exact edits_insert b inserted

/-- One edit leads from `s` to `s'` at most as far as that: whatever they are compared with. -/
def Close (s s' : List Char) : Prop := ∀ t, gap s t ≤ gap s' t + 1

theorem gap_insert_le (b : Char) (s t : List Char) : gap s (b :: t) ≤ gap s t + 1 := by
  cases s with
  | nil => simp
  | cons a s =>
    rw [gap_cons_cons]
    omega

theorem close_cons (c : Char) (s : List Char) : Close (c :: s) s := by
  intro t
  cases t with
  | nil => simp
  | cons b t =>
    rw [gap_cons_cons]
    omega

theorem close_of_cons (c : Char) (s : List Char) : Close s (c :: s) := by
  intro t
  induction t with
  | nil =>
    rw [gap_nil_right, gap_nil_right, List.length_cons]
    omega
  | cons b t ih =>
    have inserted := gap_insert_le b s t
    rw [gap_cons_cons]
    omega

theorem close_substitute (c d : Char) (s : List Char) : Close (c :: s) (d :: s) := by
  intro t
  induction t with
  | nil => simp
  | cons b t ih =>
    have at_most : (if c == b then 0 else 1) ≤ 1 := by split <;> decide
    rw [gap_cons_cons, gap_cons_cons]
    omega

/-- Characters in front change nothing. -/
theorem Close.cons (h : Close s s') (a : Char) : Close (a :: s) (a :: s') := by
  intro t
  induction t with
  | nil => simpa using h []
  | cons b t ih =>
    have rest := h t
    have whole := h (b :: t)
    rw [gap_cons_cons, gap_cons_cons]
    omega

theorem Close.append (h : Close s s') (before : List Char) :
    Close (before ++ s) (before ++ s') := by
  induction before with
  | nil => exact h
  | cons a before ih => exact ih.cons a

theorem Edit.close (h : Edit s s') : Close s s' := by
  cases h with
  | insert before after c => exact (close_of_cons c after).append before
  | delete before after c => exact (close_cons c after).append before
  | substitute before after c d => exact (close_substitute c d after).append before

/-- No fewer edits do. -/
theorem Edits.gap_le (h : Edits n s t) : gap s t ≤ n := by
  induction h with
  | none s => rw [gap_self]
  | @step n s t u first _ ih =>
    have next := first.close u
    omega

/-- The recursion gives the least number of edits. -/
theorem gap_isLeast (s t : List Char) : IsLeast {n | Edits n s t} (gap s t) :=
  ⟨edits_gap s t, fun _ h => Edits.gap_le h⟩

/-- Texts are as far apart back to front. -/
theorem gap_reverse (s t : List Char) : gap s.reverse t.reverse = gap s t := by
  have there := (edits_gap s t).reverse.gap_le
  have back := (edits_gap s.reverse t.reverse).reverse.gap_le
  rw [List.reverse_reverse, List.reverse_reverse] at back
  omega

/-- The cells of a row from a place on. The texts stand back to front: `s` is what the row is for,
`t` what has been passed over, and the cells are for what goes on beyond it. -/
def cells (s t : List Char) : List Char → List Nat
  | [] => []
  | b :: rest => gap s (b :: t) :: cells s (b :: t) rest

theorem cells_nil (t rest : List Char) :
    cells [] t rest = List.range' (t.length + 1) rest.length := by
  induction rest generalizing t with
  | nil => rfl
  | cons b rest ih =>
    rw [cells, ih, gap_nil_left, List.length_cons, List.length_cons, List.range'_succ]

theorem getLast?_cells (s t rest : List Char) :
    (gap s t :: cells s t rest).getLast? = some (gap s (rest.reverse ++ t)) := by
  induction rest generalizing t with
  | nil => rfl
  | cons b rest ih =>
    rw [cells, List.getLast?_cons_cons, ih, List.reverse_cons, List.append_assoc]
    rfl

/-- A row is filled with the distances of longer and longer beginnings. -/
theorem fillRow_cells (a : Char) (s t rest : List Char) :
    fillRow a rest (gap s t) (cells s t rest) (gap (a :: s) t) = cells (a :: s) t rest := by
  induction rest generalizing t with
  | nil => rfl
  | cons b rest ih =>
    simp only [cells, fillRow, ← gap_cons_cons]
    rw [ih]

def tableRow (s t : List Char) : List Nat := gap s [] :: cells s [] t

theorem nextRow_tableRow (a : Char) (s t : List Char) :
    nextRow t (tableRow s t) a = tableRow (a :: s) t := by
  have corner : gap s [] + 1 = gap (a :: s) [] := by
    rw [gap_nil_right, gap_nil_right, List.length_cons]
  rw [tableRow, nextRow, corner, fillRow_cells, tableRow]

theorem foldl_nextRow (s s' t : List Char) :
    s'.foldl (nextRow t) (tableRow s t) = tableRow (s'.reverse ++ s) t := by
  induction s' generalizing s with
  | nil => rfl
  | cons a s' ih =>
    rw [List.foldl_cons, nextRow_tableRow, ih, List.reverse_cons, List.append_assoc]
    rfl

theorem range_eq_tableRow (t : List Char) : List.range (t.length + 1) = tableRow [] t := by
  rw [tableRow, cells_nil, gap_nil_left, List.range_eq_range', List.range'_succ]
  rfl

/-- What is computed row by row is the distance by first characters. -/
theorem distance_eq_gap (s t : List Char) : distance s t = gap s t := by
  rw [distance, range_eq_tableRow, foldl_nextRow, tableRow, getLast?_cells, Option.getD_some,
    List.append_nil, List.append_nil, gap_reverse]

/-- The table gives the least number of edits. -/
theorem distance_isLeast (s t : List Char) : IsLeast {n | Edits n s t} (distance s t) := by
  rw [distance_eq_gap]
  exact gap_isLeast s t

example : distance "kitten".toList "sitting".toList = 3 := by decide

end GoalScript.Suggestion
