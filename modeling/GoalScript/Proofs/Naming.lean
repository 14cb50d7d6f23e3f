import GoalScript.Proofs.Numerals
import GoalScript.Proofs.Paths

namespace GoalScript

namespace Text

variable {s t : List Char} {c : Char}

theorem mem_lowerAfter {before : List Char} (same : lowerLetter c = [c]) (letter : c.toNat ≠ 0x3A3)
    (h : c ∈ s) : c ∈ lowerAfter before s := by
  induction s generalizing before with
  | nil => cases h
  | cons d s ih =>
    rw [lowerAfter]
    rcases List.mem_cons.mp h with rfl | h
    · exact List.mem_append_left _ (by simp [letter, same])
    · exact List.mem_append_right _ (ih h)

theorem mem_dropWhile {p : Char → Bool} (other : p c = false) (h : c ∈ s) : c ∈ s.dropWhile p := by
  rw [← List.takeWhile_append_dropWhile (p := p) (l := s)] at h
  refine (List.mem_append.mp h).resolve_left fun dropped => ?_
  rw [List.mem_takeWhile_imp dropped] at other
  cases other

theorem mem_trimRightWhile {p : Char → Bool} (other : p c = false) (h : c ∈ s) :
    c ∈ trimRightWhile p s := by
  rw [trimRightWhile, List.mem_reverse]
  exact mem_dropWhile other (List.mem_reverse.mpr h)

theorem mem_trimWhile {p : Char → Bool} (other : p c = false) (h : c ∈ s) : c ∈ trimWhile p s :=
  mem_trimRightWhile other (mem_dropWhile other h)

/-- Nothing is trimmed from the right but to the left of what stays. -/
theorem trimWhile_append (p : Char → Bool) (other : p c = false)
    (ends : ∃ d ∈ (c :: t).getLast?, p d = false) (s : List Char) :
    trimWhile p (s ++ c :: t) = s.dropWhile p ++ c :: t := by
  have left : (s ++ c :: t).dropWhile p = s.dropWhile p ++ c :: t := by
    rw [List.dropWhile_append]
    split
    · rename_i none
      rw [List.isEmpty_iff.mp none, List.nil_append, List.dropWhile_cons_of_neg (by simp [other])]
    · rfl
  obtain ⟨d, last, stays⟩ := last_append (s.dropWhile p) ends
  obtain ⟨rest, whole⟩ := List.getLast?_eq_some_iff.mp last
  rw [trimWhile, trimRightWhile, left, whole, List.reverse_concat,
    List.dropWhile_cons_of_neg (by simp [stays]), ← List.reverse_concat, List.reverse_reverse]

theorem trim_ne_nil (begins : ∃ c ∈ s.head?, isBlank c = false) : trim s ≠ [] := by
  obtain ⟨c, head, visible⟩ := begins
  obtain ⟨rest, rfl⟩ := List.head?_eq_some_iff.mp head
  exact List.ne_nil_of_mem (mem_trimWhile visible List.mem_cons_self)

/-- What has no blanks belongs to the last word if it stands at the end. -/
theorem words_append (visible : ∀ c ∈ t, isBlank c = false) (some : t ≠ []) (s : List Char) :
    ∃ earlier last, words (s ++ t) = earlier ++ [last ++ t] := by
  have split : ∃ earlier last, (s ++ t).splitOnP isBlank = earlier ++ [last ++ t] := by
    induction s with
    | nil => exact ⟨[], [], List.splitOnP_eq_singleton visible⟩
    | cons c s ih =>
      obtain ⟨earlier, last, split⟩ := ih
      rw [List.cons_append, List.splitOnP_cons_eq_if_modifyHead, split]
      split
      · exact ⟨[] :: earlier, last, rfl⟩
      · cases earlier with
        | nil => exact ⟨[], c :: last, rfl⟩
        | cons word earlier => exact ⟨(c :: word) :: earlier, last, rfl⟩
  obtain ⟨earlier, last, split⟩ := split
  refine ⟨earlier.filter (fun w => !w.isEmpty), last, ?_⟩
  simp [words, split, List.filter_append, some]

end Text

namespace Plan

variable {c : Char} {r s : List Char} {op : Operator} {spaced : Bool} {x : String} {plan : Plan}

/-- The names of units are made of letters. -/
theorem secondsPerUnit?_eq_none (foreign : Text.isAlphanumeric c = false)
    (same : Text.lowerLetter c = [c]) (mark : c ∈ s) : secondsPerUnit? s = none := by
  have letter : c.toNat ≠ 0x3A3 := by
    intro sigma
    obtain rfl : c = Char.ofNat 0x3A3 := by rw [← sigma, Char.ofNat_toNat]
    exact absurd foreign (by decide)
  have plural : (c == 's') = false := by
    rw [beq_eq_false_iff_ne]
    rintro rfl
    exact absurd foreign (by decide)
  have kept : c ∈ Text.trimRightWhile (· == 's') (Text.lower s) :=
    Text.mem_trimRightWhile plural (Text.mem_lowerAfter same letter mark)
  have unlike (unit : String) (letters : unit.toList.all Text.isAlphanumeric = true) :
      String.ofList (Text.trimRightWhile (· == 's') (Text.lower s)) ≠ unit := by
    rintro rfl
    rw [List.all_eq_true.mp letters c (by simpa using kept)] at foreign
    cases foreign
  unfold secondsPerUnit?
  split <;> first | rfl | exact absurd (by assumption) (unlike _ (by decide))

/-- A name does not end with an operator. -/
theorem Framed.operand {front back : List Char} (framed : Framed (front ++ op.symbol :: back)) :
    ∃ rest d, back = rest ++ [d] ∧ Text.isBlank d = false ∧ d ≠ '%' := by
  obtain ⟨c, last, visible, other⟩ := framed.ends
  rcases back.eq_nil_or_concat with rfl | ⟨rest, d, rfl⟩
  · obtain rfl : op.symbol = c := by simpa using last
    exact absurd (by cases op <;> decide) other
  · obtain rfl : d = c := by simpa [List.getLast?_cons] using last
    refine ⟨rest, d, List.concat_eq_append, visible, ?_⟩
    rintro rfl
    exact other List.mem_cons_self

structure LastOperator (name front : List Char) (op : Operator) (back : List Char) : Prop where
  parts : name = front ++ op.symbol :: back
  present : front ≠ []
  outside : Nesting.after {} front = {}
  star : op = .mul → front.getLast? ≠ some '.'
  points : Hides (· = '.') {} back
  operators : Hides IsOperator {} back
  closed : Nesting.after {} back = {}

/-- If something is calculated in a name with a text behind it that has no operators, it is at the
last operator of the name. -/
theorem exists_lastOperator {name : List Char} (closed : Closed (· = '.') {} name)
    (hides : Hides IsOperator {} s) (calculated : splitArithmetic (name ++ s) ≠ none) :
    ∃ front op back, LastOperator name front op back := by
  rcases hides_or_last IsOperator {} name with
    plain | ⟨front, symbol, back, rfl, operator, outside, operators⟩
  · exact absurd (splitArithmetic_of_hides (hides_append.mpr ⟨plain, closed.after.symm ▸ hides⟩))
      calculated
  · obtain ⟨op, rfl⟩ := operator.exists_symbol
    rw [next_symbol] at operators
    obtain ⟨before, -, points⟩ := hides_append.mp closed.hides
    rw [outside, next_symbol] at points
    have after := closed.after
    rw [Nesting.after_append, outside] at after
    change (Nesting.next {} op.symbol).after back = {} at after
    rw [next_symbol] at after
    refine ⟨front, op, back, rfl, ?_, outside, fun _ => Closed.getLast?_ne ⟨before, outside⟩,
      points, operators, after⟩
    rintro rfl
    refine calculated (splitArithmetic_cons ?_)
    rw [next_symbol]
    exact hides_append.mpr ⟨operators, after.symm ▸ hides⟩

/-- What can stand behind a name: a point or a bracket, and nothing that is calculated with. -/
structure IsPath (s : List Char) : Prop where
  begins : ∃ c ∈ s.head?, c ∈ ['.', '[']
  made : ∀ c ∈ s, IsWordChar c ∨ c ∈ ['.', '[', ']', '$']

namespace IsPath

variable (path : IsPath s)
include path

theorem visible : ∀ c ∈ s, Text.isBlank c = false := by
  have marks : ∀ c ∈ ['.', '[', ']', '$'], Text.isBlank c = false :=
    List.all_iff_forall_prop.mp (by decide)
  exact fun c mem => (path.made c mem).elim (·.not_blank) (marks c)

theorem not_mem (h : c ∈ ['%', '+', '-', '*', '/']) : c ∉ s := by
  have sub : ['%', '+', '-', '*', '/'] ⊆ signs := by decide
  have marks : ∀ c ∈ ['.', '[', ']', '$'], c ∉ ['%', '+', '-', '*', '/'] :=
    List.all_iff_forall_prop.mp (by decide)
  exact fun mem => (path.made c mem).elim (·.not_sign (sub h)) (marks c · h)

/-- A number ends before a path. -/
theorem read_eq_none (points : Hides (· = '.') {} r) (operators : Hides IsOperator {} r)
    (present : r ≠ []) (none : Number.read r = none) : Number.read (r ++ s) = Option.none := by
  obtain ⟨c, head, begins⟩ := path.begins
  obtain ⟨rest, rfl⟩ := List.head?_eq_some_iff.mp head
  rw [Option.eq_none_iff_forall_ne_some]
  intro v read
  have quiet := Number.isQuiet_of_read read
  have behind : c = '.' := by
    simp only [List.mem_cons, List.not_mem_nil, or_false] at begins
    refine begins.resolve_right ?_
    rintro rfl
    exact quiet '[' (by simp) (by decide)
  subst behind
  have within : IsQuiet r := fun c mem => quiet c (List.mem_append_left _ mem)
  have unsigned : Number.IsUnsigned (r ++ '.' :: rest) := by
    have absent : ∀ c ∈ ['+', '-'], c ∉ r ++ '.' :: rest := by
      have sub : ['+', '-'] ⊆ ['%', '+', '-', '*', '/'] := by decide
      have counts : ∀ c ∈ ['+', '-'], IsOperator c := by simp [IsOperator, Operator.ofChar?]
      intro c sign mem
      rcases List.mem_append.mp mem with mem | mem
      · exact within.not_of_hides operators c mem (counts c sign)
      · exact path.not_mem (sub sign) mem
    exact ⟨absent '+' (by simp), absent '-' (by simp)⟩
  -- A point in a number has only digits before it, and those were a number on their own.
  have magnitude : Number.readUnsigned (r ++ '.' :: rest) = some v := by
    rcases Number.read_cases read with figure | ⟨stem, sign, digits, w, split, -, known, -⟩
    · rwa [← Number.read_of_isFigure figure]
    · rw [split] at unsigned
      simp only [List.mem_cons, List.not_mem_nil, or_false] at known
      rcases known with rfl | rfl
      · exact absurd (by simp) unsigned.1
      · exact absurd (by simp) unsigned.2
  have digits := Number.digits_of_readUnsigned magnitude
    fun mem => within.not_of_hides points '.' mem rfl
  obtain ⟨w, whole⟩ := Number.read_digits present digits
  rw [none] at whole
  cases whole

/-- So does the unit of a duration. -/
theorem duration?_eq_none (r : List Char) : duration? (r ++ s) = none := by
  obtain ⟨c, head, begins⟩ := path.begins
  have mark : c ∈ s := List.mem_of_mem_head? head
  have unit (last : List Char) : secondsPerUnit? (last ++ s) = none := by
    have marks : ∀ c ∈ ['.', '['], Text.isAlphanumeric c = false ∧ Text.lowerLetter c = [c] :=
      List.all_iff_forall_prop.mp (by decide)
    obtain ⟨foreign, same⟩ := marks c begins
    exact secondsPerUnit?_eq_none foreign same (List.mem_append_right last mark)
  obtain ⟨earlier, last, words⟩ :=
    Text.words_append path.visible (Text.ne_nil_of_head path.begins) r
  unfold duration?
  split
  · rename_i amount unit' two
    rw [words] at two
    obtain rfl : unit' = last ++ s := by
      have ends := congrArg List.getLast? two
      simpa using ends.symm
    cases read : Number.read amount <;> simp [unit]
  · rfl

theorem ends : ∃ c ∈ s.getLast?, c ∈ s := by
  have some := Text.ne_nil_of_head path.begins
  exact ⟨_, List.getLast_mem_getLast? some, List.getLast_mem some⟩

theorem framed {name : List Char} (framed : Framed name) : Framed (name ++ s) := by
  obtain ⟨c, last, mem⟩ := path.ends
  exact ⟨framed.begins_append s,
    Text.last_append name ⟨c, last, path.visible c mem, fun sign => path.not_mem sign mem⟩⟩

/-- What is no operand does not become one by a path behind it. -/
theorem operand?_eq_none (points : Hides (· = '.') {} r) (operators : Hides IsOperator {} r)
    (ends : ∃ c ∈ r.getLast?, c ≠ '%') (none : operand? r op spaced = none) :
    operand? (r ++ s) op spaced = Option.none := by
  obtain ⟨c, last, other⟩ := ends
  obtain ⟨front, rfl⟩ := List.getLast?_eq_some_iff.mp last
  have number : Number.read (front ++ [c]) = Option.none := by
    cases read : Number.read (front ++ [c]) with
    | none => rfl
    | some x => simp [operand?, read] at none
  have time : duration? (front ++ [c]) = Option.none := by
    cases read : duration? (front ++ [c]) with
    | none => rfl
    | some ms => simp [operand?, number, read] at none
  have sign : (c == '%') = false := by simpa using other
  have name : Text.trimWhile (· == '%') (front ++ [c]) = front.dropWhile (· == '%') ++ [c] :=
    Text.trimWhile_append (· == '%') sign ⟨c, rfl, sign⟩ front
  have longer : Text.trimWhile (· == '%') (front ++ [c] ++ s) =
      front.dropWhile (· == '%') ++ [c] ++ s := by
    obtain ⟨d, last, mem⟩ := Text.last_append [c] path.ends
    have plain : d ≠ '%' := by
      rintro rfl
      exact path.not_mem (by decide) mem
    simpa using Text.trimWhile_append (· == '%') sign ⟨d, last, by simpa using plain⟩ front
  have first : (front ++ [c] ++ s).head? = (front ++ [c]).head? := by simp
  simp only [operand?, number, time, name] at none
  simp only [operand?, path.read_eq_none points operators (by simp) number,
    path.duration?_eq_none, longer, first]
  refine if_neg fun reference => ?_
  simp only [List.all_append, Bool.and_eq_true] at reference
  obtain ⟨⟨-, all, -⟩, marked⟩ := reference
  rw [if_pos] at none
  · cases none
  · simp only [List.all_append, all, marked, Bool.and_self, Bool.and_true]
    simp

theorem hides {n : Nesting} : Hides IsOperator n s :=
  hides_of_forall_not fun _ mem operator =>
    path.not_mem (List.mem_cons_of_mem _ operator.mem) mem

/-- What is behind an operator of a name stays no operand, so that the operator stays a character of
the name. -/
theorem splitArithmetic_operator {front back : List Char}
    (begins : ∃ c ∈ front.head?, Text.isBlank c = false) (outside : Nesting.after {} front = {})
    (star : op = .mul → front.getLast? ≠ some '.') (visible : Text.isBlank c = false)
    (sign : c ≠ '%') (points : Hides (· = '.') {} (back ++ [c]))
    (operators : Hides IsOperator {} (back ++ [c]))
    (none : splitArithmetic (front ++ op.symbol :: (back ++ [c])) = none) :
    splitArithmetic (front ++ op.symbol :: (back ++ [c] ++ s)) = Option.none := by
  have present : front ≠ [] := Text.ne_nil_of_head begins
  have longer : Hides IsOperator {} (back ++ [c] ++ s) := hides_append.mpr ⟨operators, path.hides⟩
  have right : Text.trim (back ++ [c]) = back.dropWhile Text.isBlank ++ [c] :=
    Text.trimWhile_append Text.isBlank visible ⟨c, rfl, visible⟩ back
  have right' : Text.trim (back ++ [c] ++ s) = back.dropWhile Text.isBlank ++ [c] ++ s := by
    obtain ⟨d, last, mem⟩ := Text.last_append [c] path.ends
    simpa [Text.trim] using
      Text.trimWhile_append Text.isBlank visible ⟨d, last, path.visible d mem⟩ back
  have first : (back ++ [c] ++ s).head? = (back ++ [c]).head? := by simp
  have some : ((Text.trim front).isEmpty ||
      (back.dropWhile Text.isBlank ++ [c]).isEmpty) = false := by
    simp [Text.trim_ne_nil begins]
  rw [splitArithmetic_eq present outside star operators, right, some, if_neg Bool.false_ne_true,
    Option.map_eq_none_iff] at none
  have ends : ∃ d ∈ (back.dropWhile Text.isBlank ++ [c]).getLast?, d ≠ '%' := ⟨c, by simp, sign⟩
  rw [splitArithmetic_eq present outside star longer, right', first,
    path.operand?_eq_none (hides_of_blanks points) (hides_of_blanks operators) ends none,
    Option.map_none, ite_self]

/-- A name goes on to stand for itself with a path behind it. -/
theorem splitArithmetic_eq_none {name : List Char} (framed : Framed name)
    (closed : Closed (· = '.') {} name) (none : splitArithmetic name = none) :
    splitArithmetic (name ++ s) = Option.none := by
  by_contra calculated
  obtain ⟨front, op, back, last⟩ := exists_lastOperator closed path.hides calculated
  obtain rfl := last.parts
  obtain ⟨back, d, rfl, visible, sign⟩ := framed.operand
  have begins : ∃ c ∈ front.head?, Text.isBlank c = false := by
    obtain ⟨c, head, first, -⟩ := framed.begins
    rw [List.head?_append_of_ne_nil _ last.present] at head
    exact ⟨c, head, first⟩
  rw [List.append_assoc, List.cons_append] at calculated
  exact calculated (path.splitArithmetic_operator begins last.outside last.star visible sign
    last.points last.operators none)

end IsPath

/-- A name that a path can be put behind: as it stands it is the name of a variable, and it is
balanced: no quote and no bracket is left open, and none is closed that was not opened. -/
structure IsRoot (x : String) (plan : Plan) : Prop where
  parsed : parse x = .ok plan
  whole : plan.segments = []
  plain : plan.arithmetic = none
  framed : Framed x.toList
  closed : Nesting.after {} x.toList = {}

namespace IsRoot

variable (root : IsRoot x plan)
include root

/-- As it stands the name is read as a variable, with nothing to be calculated. -/
theorem found : splitArithmetic x.toList = none ∧
    path x.toList x.toList = .ok (plan.root, []) := by
  obtain ⟨left, read, ⟨-, none, rfl⟩ | ⟨a, calculated, -⟩⟩ := parse_cases root.parsed
  · rw [root.framed.strip_eq] at none read
    rw [root.whole] at read
    exact ⟨none, read⟩
  · rw [root.plain] at calculated
    cases calculated

theorem hides : Closed (· = '.') {} x.toList :=
  ⟨hides_of_splitFrom (path_eq_root root.found.2).1, root.closed⟩

theorem unbracketed : '[' ∉ x.toList := by
  have none := (Prod.mk.inj (path_eq_root root.found.2).2.1).2
  intro mem
  simpa using List.dropWhile_eq_nil_iff.mp none '[' mem

/-- What is read behind the name is read from the variable. -/
theorem parse_append {segments : List Segment} (behind : s = [] ∨ IsPath s)
    (read : ∀ raw, path raw (x.toList ++ s) =
      .ok (String.ofList (translateEscapes x.toList), segments)) :
    parse (x ++ String.ofList s) =
      .ok { expr := x ++ String.ofList s, root := plan.root, segments, arithmetic := none } := by
  have parts : String.ofList (x.toList ++ s) = x ++ String.ofList s := by
    rw [String.ofList_append, String.ofList_toList]
  have framed : Framed (x.toList ++ s) := by
    rcases behind with rfl | path
    · rw [List.append_nil]
      exact root.framed
    · exact path.framed root.framed
  have plain : splitArithmetic (x.toList ++ s) = none := by
    rcases behind with rfl | path
    · rw [List.append_nil]
      exact root.found.1
    · exact path.splitArithmetic_eq_none root.framed root.hides root.found.1
  have parsed := parse_of_bare framed plain
  dsimp only [Option.map_none, Option.getD_none] at parsed
  rwa [read, parts, ← (path_eq_root root.found.2).2.2] at parsed

end IsRoot

end Plan

end GoalScript
