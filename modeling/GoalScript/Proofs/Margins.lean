import GoalScript.Plan.Parser

namespace GoalScript

namespace Text

variable {c : Char} {s t : List Char}

theorem head_append {p : Char → Prop} (h : ∃ c ∈ s.head?, p c) (t : List Char) :
    ∃ c ∈ (s ++ t).head?, p c := by
  obtain ⟨c, head, hc⟩ := h
  exact ⟨c, by simp [List.head?_append, Option.mem_def.mp head], hc⟩

theorem last_append {p : Char → Prop} (s : List Char) (h : ∃ c ∈ t.getLast?, p c) :
    ∃ c ∈ (s ++ t).getLast?, p c := by
  obtain ⟨c, last, hc⟩ := h
  exact ⟨c, by simp [List.getLast?_append, Option.mem_def.mp last], hc⟩

theorem ne_nil_of_head {p : Char → Prop} (h : ∃ c ∈ s.head?, p c) : s ≠ [] := by
  rintro rfl
  obtain ⟨c, head, -⟩ := h
  cases head

theorem forall_bne (h : c ∉ s) : ∀ d ∈ s, (d != c) = true := by
  intro d mem
  have other : d ≠ c := fun same => h (same ▸ mem)
  simpa using other

structure Solid (s : List Char) : Prop where
  head : ∃ c ∈ s.head?, isBlank c = false
  last : ∃ c ∈ s.getLast?, isBlank c = false

theorem solid_of_visible (some : s ≠ []) (visible : ∀ c ∈ s, isBlank c = false) : Solid s :=
  ⟨⟨_, List.head_mem_head? some, visible _ (List.head_mem some)⟩,
    ⟨_, List.getLast_mem_getLast? some, visible _ (List.getLast_mem some)⟩⟩

theorem dropWhile_append {p : Char → Bool} {before : List Char} (drop : ∀ c ∈ before, p c = true)
    (stop : ∃ c ∈ s.head?, p c = false) : (before ++ s).dropWhile p = s := by
  obtain ⟨c, head, stop⟩ := stop
  obtain ⟨rest, rfl⟩ := List.head?_eq_some_iff.mp head
  rw [List.dropWhile_append_of_pos drop, List.dropWhile_cons_of_neg (by simp [stop])]

/-- Blanks around a solid text are stripped, and nothing else. -/
theorem trim_append {before after : List Char} (hb : ∀ c ∈ before, isBlank c = true)
    (ha : ∀ c ∈ after, isBlank c = true) (solid : Solid s) : trim (before ++ s ++ after) = s := by
  have front : (before ++ (s ++ after)).dropWhile isBlank = s ++ after :=
    dropWhile_append hb (head_append solid.head after)
  have back : (after.reverse ++ s.reverse).dropWhile isBlank = s.reverse :=
    dropWhile_append (by simpa using ha) (by simpa using solid.last)
  rw [trim, trimWhile, trimRightWhile, List.append_assoc, front, List.reverse_append, back,
    List.reverse_reverse]

theorem trim_of_solid (solid : Solid s) : trim s = s := by
  simpa using trim_append (List.forall_mem_nil _) (List.forall_mem_nil _) solid

end Text

namespace Plan

/-- Blanks around a text, and perhaps a percent sign with blanks after it, from the outside in. -/
structure Margin where
  outer : List Char
  inner : Option (List Char)
  outer_blank : ∀ c ∈ outer, Text.isBlank c = true
  inner_blank : ∀ c ∈ inner.getD [], Text.isBlank c = true

namespace Margin

def core (m : Margin) : List Char :=
  match m.inner with
  | none => []
  | some blanks => '%' :: blanks

def text (m : Margin) : List Char := m.outer ++ m.core

variable (m : Margin) {s : List Char}

theorem core_begins (h : ∃ c ∈ s.head?, Text.isBlank c = false) :
    ∃ c ∈ (m.core ++ s).head?, Text.isBlank c = false := by
  unfold core
  split
  · exact h
  · exact ⟨'%', rfl, by decide⟩

theorem dropLeading_core (h : ∃ c ∈ s.head?, c ≠ '%') :
    dropLeading '%' (m.core ++ s) = m.inner.getD [] ++ s := by
  unfold core
  split
  · rename_i inner
    obtain ⟨c, head, other⟩ := h
    obtain ⟨rest, rfl⟩ := List.head?_eq_some_iff.mp head
    simp [dropLeading, inner, other]
  · rename_i inner
    simp [dropLeading, inner]

end Margin

/-- Neither a blank nor a percent sign at either end, and no operator at the end. -/
structure Framed (s : List Char) : Prop where
  begins : ∃ c ∈ s.head?, Text.isBlank c = false ∧ c ≠ '%'
  ends : ∃ c ∈ s.getLast?, Text.isBlank c = false ∧ c ∉ ['%', '+', '-', '*', '/']

theorem dropTrailing_eq (c : Char) (s : List Char) :
    dropTrailing c s = (dropLeading c s.reverse).reverse := by
  rcases s.eq_nil_or_concat with rfl | ⟨rest, d, rfl⟩
  · rfl
  · simp only [dropTrailing, List.concat_eq_append, List.getLast?_concat, List.dropLast_concat,
      List.reverse_concat, dropLeading, Option.some_beq_some]
    split <;> simp

namespace Framed

variable {s : List Char} (framed : Framed s)
include framed

theorem solid : Text.Solid s := by
  obtain ⟨c, head, begins, -⟩ := framed.begins
  obtain ⟨d, last, ends, -⟩ := framed.ends
  exact ⟨⟨c, head, begins⟩, ⟨d, last, ends⟩⟩

theorem dropDangling_reverse : dropDangling s.reverse = s.reverse := by
  obtain ⟨c, last, -, other⟩ := framed.ends
  obtain ⟨rest, rfl⟩ := List.getLast?_eq_some_iff.mp last
  have hanging : isDangling (c :: rest.reverse) = false := by
    unfold isDangling
    split <;> simp_all
  rw [List.reverse_concat, dropDangling, hanging, if_neg Bool.false_ne_true]

theorem begins_append (after : List Char) :
    ∃ c ∈ (s ++ after).head?, Text.isBlank c = false ∧ c ≠ '%' :=
  Text.head_append framed.begins after

theorem ends_append (before : List Char) :
    ∃ c ∈ (s.reverse ++ before).head?, Text.isBlank c = false ∧ c ≠ '%' := by
  obtain ⟨c, last, visible, other⟩ := framed.ends
  refine Text.head_append ⟨c, by simpa using last, visible, ?_⟩ before
  rintro rfl
  exact other (by decide)

/-- A percent sign stops the trimming of a margin, and without one the text does. -/
theorem trim_margins (left right : Margin) :
    Text.trim (left.text ++ s ++ right.text.reverse) = left.core ++ (s ++ right.core.reverse) := by
  have outer : ∀ c ∈ right.outer.reverse, Text.isBlank c = true := by
    simpa using right.outer_blank
  have wrapped : Text.Solid (left.core ++ (s ++ right.core.reverse)) := by
    obtain ⟨c, head, begins, -⟩ := framed.begins_append right.core.reverse
    obtain ⟨d, last, ends, -⟩ := framed.ends_append left.core.reverse
    refine ⟨left.core_begins ⟨c, head, begins⟩, ?_⟩
    rw [← List.head?_reverse]
    simpa using right.core_begins ⟨d, last, ends⟩
  simpa [Margin.text] using Text.trim_append left.outer_blank outer wrapped

theorem dropLeading_margin (left : Margin) (after : List Char) :
    dropLeading '%' (left.core ++ (s ++ after)) = left.inner.getD [] ++ (s ++ after) := by
  obtain ⟨c, head, -, other⟩ := framed.begins_append after
  exact left.dropLeading_core ⟨c, head, other⟩

theorem dropTrailing_margin (right : Margin) (before : List Char) :
    dropTrailing '%' (before ++ (s ++ right.core.reverse)) =
      before ++ s ++ (right.inner.getD []).reverse := by
  obtain ⟨c, head, -, other⟩ := framed.ends_append before.reverse
  have reverse : (before ++ (s ++ right.core.reverse)).reverse =
      right.core ++ (s.reverse ++ before.reverse) := by simp
  rw [dropTrailing_eq, reverse, right.dropLeading_core ⟨c, head, other⟩]
  simp

/-- What stands between margins is what is left when they are stripped. -/
theorem strip_margins (left right : Margin) :
    strip (left.text ++ s ++ right.text.reverse) = s := by
  have inner : ∀ c ∈ (right.inner.getD []).reverse, Text.isBlank c = true := by
    simpa using right.inner_blank
  rw [strip, framed.trim_margins, framed.dropLeading_margin, framed.dropTrailing_margin,
    Text.trim_append left.inner_blank inner framed.solid, framed.dropDangling_reverse,
    List.reverse_reverse]

/-- Nothing is stripped off a framed text. -/
theorem strip_eq : strip s = s := by
  let margin : Margin := ⟨[], none, List.forall_mem_nil _, List.forall_mem_nil _⟩
  simpa [Margin.text, Margin.core, margin] using framed.strip_margins margin margin

end Framed

end Plan

end GoalScript
