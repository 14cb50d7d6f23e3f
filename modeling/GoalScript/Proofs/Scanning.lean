import GoalScript.Proofs.Names

namespace GoalScript.Plan

/-- Where a scan stands after a text. -/
def Nesting.after (n : Nesting) (s : List Char) : Nesting := s.foldl Nesting.next n

/-- No character with the property stands outside brackets and quotes. -/
def Hides (p : Char → Prop) (n : Nesting) : List Char → Prop
  | [] => True
  | c :: rest => (n.isOutside = true → ¬ p c) ∧ Hides p (n.next c) rest

/-- A scan for the characters passes over the text and stands where it stood before. -/
structure Closed (p : Char → Prop) (n : Nesting) (s : List Char) : Prop where
  hides : Hides p n s
  after : n.after s = n

variable {p : Char → Prop} {n : Nesting} {s t : List Char} {separator : Char}

/-- A scan of two texts goes on in the second as the first has left it. -/
theorem hides_append : Hides p n (s ++ t) ↔ Hides p n s ∧ Hides p (n.after s) t := by
  induction s generalizing n with
  | nil => simp [Hides, Nesting.after]
  | cons c s ih => simp [Hides, Nesting.after, ih, and_assoc]

theorem Nesting.after_append : n.after (s ++ t) = (n.after s).after t := List.foldl_append

namespace Closed

theorem nil : Closed p n [] := ⟨trivial, rfl⟩

theorem append (hs : Closed p n s) (ht : Closed p n t) : Closed p n (s ++ t) where
  hides := hides_append.mpr ⟨hs.hides, hs.after.symm ▸ ht.hides⟩
  after := by rw [Nesting.after_append, hs.after, ht.after]

theorem flatMap {α : Type} {f : α → List Char} {l : List α} (h : ∀ a ∈ l, Closed p n (f a)) :
    Closed p n (l.flatMap f) := by
  induction l with
  | nil => exact nil
  | cons a l ih =>
    obtain ⟨first, rest⟩ := List.forall_mem_cons.mp h
    exact first.append (ih rest)

/-- Characters that open and close nothing. -/
theorem of_steady (steady : ∀ c ∈ s, n.next c = n)
    (hp : n.isOutside = true → ∀ c ∈ s, ¬ p c) : Closed p n s := by
  induction s with
  | nil => exact nil
  | cons c s ih =>
    obtain ⟨first, rest⟩ := List.forall_mem_cons.mp steady
    have later := ih rest fun outside d hd => hp outside d (List.mem_cons_of_mem _ hd)
    constructor
    · refine ⟨fun outside => hp outside c List.mem_cons_self, ?_⟩
      rw [first]
      exact later.hides
    · rw [Nesting.after, List.foldl_cons, first]
      exact later.after

/-- A text between two characters, the first of which leads the scan to where the second one leads
it back from. -/
theorem between {n' : Nesting} {first last : Char} (enter : n.next first = n')
    (leave : n'.next last = n) (inside : n'.isOutside = false)
    (hp : n.isOutside = true → ¬ p first) (h : Closed p n' s) :
    Closed p n (first :: (s ++ [last])) where
  hides := by
    refine ⟨hp, ?_⟩
    rw [enter]
    refine hides_append.mpr ⟨h.hides, ?_⟩
    rw [h.after]
    exact ⟨fun outside => absurd outside (ne_true_of_eq_false inside), trivial⟩
  after := by
    change (n.next first).after (s ++ [last]) = n
    rw [enter, Nesting.after_append, h.after]
    exact leave

/-- Brackets hide what is closed inside of them. -/
theorem bracketed (hp : ¬ p '[') (h : Closed p ⟨1, none⟩ s) : Closed p {} ('[' :: (s ++ [']'])) :=
  between rfl rfl rfl (fun _ => hp) h

/-- Within quotes nothing counts but the quote that ends them. -/
theorem quoted {depth : Int} (hp : ¬ p '\'') (h : '\'' ∉ s) :
    Closed p ⟨depth, none⟩ ('\'' :: (s ++ ['\''])) := by
  have steady : ∀ c ∈ s, Nesting.next ⟨depth, some '\''⟩ c = ⟨depth, some '\''⟩ := by
    intro c mem
    have other : c ≠ '\'' := fun same => h (same ▸ mem)
    simp [Nesting.next, other]
  have inside : Nesting.isOutside ⟨depth, some '\''⟩ = false := rfl
  exact between rfl rfl inside (fun _ => hp)
    (of_steady steady fun outside => absurd outside (ne_true_of_eq_false inside))

end Closed

def IsQuiet (s : List Char) : Prop := ∀ c ∈ s, c ∉ ['"', '\'', '[', ']', '(', ')']

theorem closed_of_isQuiet {p : Char → Prop} (quiet : IsQuiet s) (plain : ∀ c ∈ s, ¬ p c) :
    Closed p {} s := by
  refine .of_steady (fun c mem => ?_) fun _ => plain
  have others := quiet c mem
  simp only [List.mem_cons, List.not_mem_nil, or_false, not_or] at others
  simp [Nesting.next, others]

theorem after_of_isQuiet (quiet : IsQuiet s) : Nesting.after {} s = {} :=
  (closed_of_isQuiet (p := fun _ => False) quiet fun _ _ => not_false).after

theorem IsQuiet.append (hs : IsQuiet s) (ht : IsQuiet t) : IsQuiet (s ++ t) :=
  fun c mem => (List.mem_append.mp mem).elim (hs c) (ht c)

theorem hides_of_forall_not (absent : ∀ c ∈ s, ¬ p c) : Hides p n s := by
  induction s generalizing n with
  | nil => trivial
  | cons c s ih =>
    obtain ⟨first, rest⟩ := List.forall_mem_cons.mp absent
    exact ⟨fun _ => first, ih rest⟩

/-- Where nothing opens, everything is outside. -/
theorem IsQuiet.not_of_hides (quiet : IsQuiet s) (h : Hides p {} s) : ∀ c ∈ s, ¬ p c := by
  induction s with
  | nil => exact List.forall_mem_nil _
  | cons c s ih =>
    obtain ⟨first, rest⟩ := List.forall_mem_cons.mp quiet
    have next : Nesting.next {} c = {} :=
      after_of_isQuiet (List.forall_mem_singleton.mpr first)
    refine List.forall_mem_cons.mpr ⟨h.1 rfl, ih rest ?_⟩
    have later := h.2
    rwa [next] at later

theorem Nesting.eq_of_isOutside (outside : n.isOutside = true) : n = {} := by
  obtain ⟨depth, quote⟩ := n
  simp only [Nesting.isOutside, Bool.and_eq_true, Option.isNone_iff_eq_none, beq_iff_eq] at outside
  rw [outside.1, outside.2]

theorem Nesting.quote_next (known : ∀ q ∈ n.quote, q ∈ ['"', '\'']) (c : Char) :
    ∀ q ∈ (n.next c).quote, q ∈ ['"', '\''] := by
  unfold Nesting.next
  split
  · split
    · simp
    · exact known
  · rename_i none
    split
    · rename_i opens
      simpa using opens
    · split
      · exact known
      · split <;> exact known

theorem Nesting.quote_after (s : List Char) (known : ∀ q ∈ n.quote, q ∈ ['"', '\'']) :
    ∀ q ∈ (n.after s).quote, q ∈ ['"', '\''] := by
  induction s generalizing n with
  | nil => exact known
  | cons c s ih => exact ih (Nesting.quote_next known c)

/-- A point at the end of a text that closes what it opens is outside. -/
theorem Closed.getLast?_ne (h : Closed (· = '.') {} s) : s.getLast? ≠ some '.' := by
  intro last
  obtain ⟨front, rfl⟩ := List.getLast?_eq_some_iff.mp last
  have hidden := (hides_append.mp h.hides).2.1
  have known := Nesting.quote_after (n := {}) front (by simp)
  have after : (Nesting.after {} front).next '.' = {} := Nesting.after_append.symm.trans h.after
  generalize Nesting.after {} front = n at hidden known after
  obtain ⟨depth, quote⟩ := n
  cases quote with
  | none =>
    obtain rfl : depth = 0 := congrArg Nesting.depth after
    exact hidden rfl rfl
  | some q =>
    have other : '.' ≠ q := by
      rintro rfl
      exact absurd (known '.' rfl) (by decide)
    simp [Nesting.next, other] at after

/-- Either there is nothing to find, or there is a last one. -/
theorem hides_or_last (p : Char → Prop) (n : Nesting) (s : List Char) : Hides p n s ∨
    ∃ front c back, s = front ++ c :: back ∧ p c ∧ n.after front = {} ∧
      Hides p (Nesting.next {} c) back := by
  induction s generalizing n with
  | nil => exact .inl trivial
  | cons c s ih =>
    rcases ih (n.next c) with hides | ⟨front, d, back, rfl, found, outside, hides⟩
    · by_cases here : n.isOutside = true ∧ p c
      · refine .inr ⟨[], c, s, rfl, here.2, Nesting.eq_of_isOutside here.1, ?_⟩
        rwa [← Nesting.eq_of_isOutside here.1]
      · exact .inl ⟨fun outside found => here ⟨outside, found⟩, hides⟩
    · exact .inr ⟨c :: front, d, back, rfl, found, outside, hides⟩

theorem splitFrom_separator (outside : n.isOutside = true) :
    splitFrom separator n (separator :: s) = [] :: splitFrom separator n s := by
  rw [splitFrom, outside, beq_self_eq_true, Bool.and_self, if_pos rfl]

theorem splitFrom_cons {c : Char} {rest : List Char} (h : n.isOutside = true → c ≠ separator) :
    splitFrom separator n (c :: rest) =
      (splitFrom separator (n.next c) rest).modifyHead (c :: ·) := by
  have passed : (n.isOutside && c == separator) = false := by simpa using h
  rw [splitFrom, passed, if_neg Bool.false_ne_true]
  split
  · rename_i split
    rw [split, List.modifyHead_cons]
  · rename_i split
    exact absurd split (splitFrom_ne_nil _ _ _)

theorem splitFrom_append (h : Hides (· = separator) n s) (t : List Char) :
    splitFrom separator n (s ++ t) =
      (splitFrom separator (n.after s) t).modifyHead (s ++ ·) := by
  induction s generalizing n with
  | nil => exact (congrFun List.modifyHead_id _).symm
  | cons c s ih =>
    rw [List.cons_append, splitFrom_cons h.1, ih h.2, List.modifyHead_modifyHead]
    rfl

/-- A text that is its only piece has no separators outside brackets and quotes. -/
theorem hides_of_splitFrom {piece : List Char} (h : splitFrom separator n s = [piece]) :
    Hides (· = separator) n s := by
  induction s generalizing n piece with
  | nil => trivial
  | cons c s ih =>
    by_cases here : n.isOutside = true ∧ c = separator
    · rw [here.2, splitFrom_separator here.1] at h
      exact absurd (List.cons.inj h).2 (splitFrom_ne_nil _ _ _)
    · have passed : n.isOutside = true → c ≠ separator := fun outside same => here ⟨outside, same⟩
      rw [splitFrom_cons passed] at h
      obtain ⟨first, rest, split⟩ :=
        List.exists_cons_of_ne_nil (splitFrom_ne_nil separator (n.next c) s)
      rw [split, List.modifyHead_cons] at h
      obtain ⟨-, rfl⟩ := List.cons.inj h
      exact ⟨passed, ih split⟩

/-- A closed text is a piece of its own before a separator. -/
theorem splitTop_append (h : Closed (· = separator) {} s) (t : List Char) :
    splitTop separator (s ++ separator :: t) = s :: splitTop separator t := by
  rw [splitTop, splitFrom_append h.hides, h.after, splitFrom_separator rfl, List.modifyHead_cons,
    List.append_nil]
  rfl

/-- A text that hides its separators is one piece. -/
theorem splitTop_of_hides (h : Hides (· = separator) {} s) : splitTop separator s = [s] := by
  have whole := splitFrom_append h []
  rw [List.append_nil] at whole
  rw [splitTop, whole]
  simp [splitFrom]

theorem splitTop_eq_singleton (h : Closed (· = separator) {} s) : splitTop separator s = [s] :=
  splitTop_of_hides h.hides

/-- Closed texts with separators between them are split where they were joined. -/
theorem splitTop_flatMap {pieces : List (List Char)} (hs : Closed (· = separator) {} s)
    (h : ∀ piece ∈ pieces, Closed (· = separator) {} piece) :
    splitTop separator (s ++ pieces.flatMap (separator :: ·)) = s :: pieces := by
  induction pieces generalizing s with
  | nil =>
    rw [List.flatMap_nil, List.append_nil]
    exact splitTop_eq_singleton hs
  | cons piece pieces ih =>
    obtain ⟨first, rest⟩ := List.forall_mem_cons.mp h
    rw [List.flatMap_cons, List.cons_append, splitTop_append hs, ih first rest]

def IsOperator (c : Char) : Prop := (Operator.ofChar? c).isSome = true

theorem IsOperator.mem {c : Char} (h : IsOperator c) : c ∈ ['+', '-', '*', '/'] := by
  unfold IsOperator Operator.ofChar? at h
  split at h <;> simp_all

theorem IsOperator.exists_symbol {c : Char} (h : IsOperator c) :
    ∃ op : Operator, op.symbol = c := by
  obtain ⟨op, known⟩ := Option.isSome_iff_exists.mp h
  refine ⟨op, ?_⟩
  unfold Operator.ofChar? at known
  split at known <;> cases known <;> rfl

theorem operatorsFrom_of_hides {place : Nat} {previous : Option Char} {found : List Nat}
    (h : Hides IsOperator n s) : operatorsFrom place n previous found s = found := by
  induction s generalizing n place previous with
  | nil => rfl
  | cons c s ih =>
    have passed : (n.isOutside && (Operator.ofChar? c).isSome) = false := by
      simpa [IsOperator] using h.1
    simp only [operatorsFrom, passed, Bool.false_and, Bool.false_eq_true, if_false]
    exact ih h.2

theorem operatorsFrom_append (place : Nat) (n : Nesting) (previous : Option Char) (found : List Nat)
    (s t : List Char) : operatorsFrom place n previous found (s ++ t) =
      operatorsFrom (place + s.length) (n.after s) (s.getLast?.or previous)
        (operatorsFrom place n previous found s) t := by
  induction s generalizing place n previous found with
  | nil => rfl
  | cons c s ih =>
    rw [List.cons_append, operatorsFrom, ih]
    have next : (c :: s).getLast?.or previous = s.getLast?.or (some c) := by
      cases s with
      | nil => rfl
      | cons d s => simp [List.getLast?_cons]
    rw [next, operatorsFrom, List.length_cons, Nat.add_right_comm, Nat.add_assoc]
    rfl

theorem ofChar?_symbol (op : Operator) : Operator.ofChar? op.symbol = some op := by
  cases op <;> rfl

theorem next_symbol (op : Operator) : Nesting.next {} op.symbol = {} := by cases op <;> rfl

/-- The last operator is found, whatever stands before it. -/
theorem head?_operatorsFrom {op : Operator} {front back : List Char} (present : front ≠ [])
    (outside : Nesting.after {} front = {}) (star : op = .mul → front.getLast? ≠ some '.')
    (hides : Hides IsOperator {} back) :
    (operatorsFrom 0 {} none [] (front ++ op.symbol :: back)).head? = some front.length := by
  have counts : (Nesting.isOutside {} && (Operator.ofChar? op.symbol).isSome &&
      decide (front.length > 0) && !(op.symbol == '*' && front.getLast?.or none == some '.')) =
        true := by
    have length := List.length_pos_iff.mpr present
    rw [ofChar?_symbol]
    cases op <;> simp [Operator.symbol, Nesting.isOutside, length, star]
  rw [operatorsFrom_append, outside, operatorsFrom, Nat.zero_add, counts, next_symbol]
  simp only [if_true, operatorsFrom_of_hides hides, List.head?_cons]

/-- The operation behind the last operator, when both sides are there. -/
theorem splitArithmetic_eq {op : Operator} {front back : List Char} (present : front ≠ [])
    (outside : Nesting.after {} front = {}) (star : op = .mul → front.getLast? ≠ some '.')
    (hides : Hides IsOperator {} back) :
    splitArithmetic (front ++ op.symbol :: back) =
      if (Text.trim front).isEmpty || (Text.trim back).isEmpty then none
      else (operand? (Text.trim back) op (front.getLast? == some ' ' && back.head? == some ' ')).map
        fun operand => (Text.trim front, ⟨op, operand⟩) := by
  rw [splitArithmetic, head?_operatorsFrom present outside star hides]
  simp only [Option.bind_eq_bind, Option.bind_some, List.take_left', List.drop_left',
    List.head?_cons, ofChar?_symbol, ← List.drop_drop, List.drop_succ_cons, List.drop_zero]
  split
  · rfl
  · cases operand? (Text.trim back) op _ <;> rfl

/-- Without an operator in the open nothing is calculated. -/
theorem splitArithmetic_of_hides (h : Hides IsOperator {} s) : splitArithmetic s = none := by
  simp [splitArithmetic, operatorsFrom_of_hides h]

/-- An operator at the beginning is none. -/
theorem splitArithmetic_cons {c : Char} (h : Hides IsOperator (Nesting.next {} c) s) :
    splitArithmetic (c :: s) = none := by
  simp [splitArithmetic, operatorsFrom, operatorsFrom_of_hides h]

end GoalScript.Plan
