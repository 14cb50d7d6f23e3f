import Mathlib.Data.Bool.AllAny
import GoalScript.Proofs.Margins
import GoalScript.Proofs.Members
import GoalScript.Proofs.Placeholders
import GoalScript.Proofs.Scanning

namespace GoalScript

namespace Text

variable {c : Char}

theorem span_of_within {spans : List (Nat × Nat)} {n : Nat} (h : within spans n = true) :
    ∃ span ∈ spans, span.1 ≤ n ∧ n ≤ span.2 := by
  induction spans with
  | nil => cases h
  | cons span spans ih =>
    simp only [within] at h
    split at h
    · cases h
    · rename_i low
      rcases Bool.or_eq_true_iff.mp h with high | later
      · exact ⟨span, List.mem_cons_self, Nat.le_of_not_lt low, of_decide_eq_true high⟩
      · obtain ⟨found, mem, within⟩ := ih later
        exact ⟨found, List.mem_cons_of_mem _ mem, within⟩

theorem isBlank_of_isAlphanumeric (h : isAlphanumeric c = true) : isBlank c = false := by
  have apart : ∀ span ∈ blankSpans, ∀ i < span.2 + 1 - span.1,
      (within alphabeticSpans (span.1 + i) || within numericSpans (span.1 + i)) = false := by
    decide +kernel
  refine Bool.eq_false_iff.mpr fun blank => ?_
  obtain ⟨span, mem, low, high⟩ := span_of_within blank
  have alphanumeric := apart span mem (c.toNat - span.1) (by omega)
  rw [Nat.add_sub_cancel' low] at alphanumeric
  exact absurd h (ne_true_of_eq_false alphanumeric)

theorem isDigit_of_isAlphabetic (h : isAlphabetic c = true) : c.isDigit = false := by
  refine Bool.eq_false_iff.mpr fun digit => ?_
  have bounds : 48 ≤ c.toNat ∧ c.toNat ≤ 57 := Char.isDigit_iff_toNat.mp digit
  rw [isAlphabetic, alphabeticSpans, within, if_pos (by omega)] at h
  cases h

theorem isAlphanumeric_of_isDigit (h : c.isDigit = true) : isAlphanumeric c = true := by
  have bounds : 48 ≤ c.toNat ∧ c.toNat ≤ 57 := Char.isDigit_iff_toNat.mp h
  have numeric : isNumeric c = true := by
    rw [isNumeric, numericSpans, within, if_neg (by omega), decide_eq_true bounds.2, Bool.true_or]
  rw [isAlphanumeric, numeric, Bool.or_true]

end Text

namespace Plan

def IsWordChar (c : Char) : Prop := Text.isAlphanumeric c = true ∨ c ∈ ['_', '&', ';']

instance : DecidablePred IsWordChar := fun c =>
  inferInstanceAs (Decidable (Text.isAlphanumeric c = true ∨ c ∈ ['_', '&', ';']))

def signs : List Char :=
  ['"', '\'', '[', ']', '(', ')', '.', '+', '-', '*', '/', '%', '$', '?']

def dividers : List Char := ['.', '+', '-', '*', '/']

variable {c : Char} {s : List Char} {p : Char → Prop}

theorem IsOperator.mem_dividers (h : IsOperator c) : c ∈ dividers := List.mem_cons_of_mem _ h.mem

/-- A point is no operator. -/
theorem closed_point : Closed IsOperator {} ['.'] :=
  .of_steady (by simp [Nesting.next]) (by simp [IsOperator, Operator.ofChar?])

theorem IsWordChar.not_sign (h : IsWordChar c) : c ∉ signs := by
  have apart : ∀ c ∈ signs, ¬ IsWordChar c := List.all_iff_forall_prop.mp (by decide)
  exact fun sign => apart c sign h

theorem IsWordChar.not_blank (h : IsWordChar c) : Text.isBlank c = false := by
  have others : ∀ c ∈ ['_', '&', ';'], Text.isBlank c = false :=
    List.all_iff_forall_prop.mp (by decide)
  exact h.elim Text.isBlank_of_isAlphanumeric (others c)

theorem isQuiet_of_words (words : ∀ c ∈ s, IsWordChar c ∨ c ∈ dividers) : IsQuiet s := by
  have sub : ['"', '\'', '[', ']', '(', ')'] ⊆ signs := by decide
  have others : ∀ c ∈ dividers, c ∉ ['"', '\'', '[', ']', '(', ')'] :=
    List.all_iff_forall_prop.mp (by decide)
  intro c mem nests
  exact (words c mem).elim (·.not_sign (sub nests)) (others c · nests)

theorem not_mem_of_isBlank (h : Text.isBlank c = true) : c ∉ '&' :: signs := by
  have visible : ∀ c ∈ '&' :: signs, Text.isBlank c = false :=
    List.all_iff_forall_prop.mp (by decide)
  intro mem
  rw [visible c mem] at h
  cases h

theorem isQuiet_of_blank (blank : ∀ c ∈ s, Text.isBlank c = true) : IsQuiet s := by
  have sub : ['"', '\'', '[', ']', '(', ')'] ⊆ '&' :: signs := by decide
  exact fun c mem nests => not_mem_of_isBlank (blank c mem) (sub nests)

/-- Blanks hide nothing that is behind them. -/
theorem hides_of_blanks {t : List Char} (h : Hides p {} (s ++ t)) :
    Hides p {} (s.dropWhile Text.isBlank ++ t) := by
  have blank : IsQuiet (s.takeWhile Text.isBlank) :=
    isQuiet_of_blank (List.all_eq_true.mp List.all_takeWhile)
  rw [← List.takeWhile_append_dropWhile (p := Text.isBlank) (l := s), List.append_assoc,
    hides_append, after_of_isQuiet blank] at h
  exact h.2

/-- A word moves no scan. -/
theorem IsWordChar.next (h : IsWordChar c) (depth : Int) :
    Nesting.next ⟨depth, none⟩ c = ⟨depth, none⟩ := by
  have plain := h.not_sign
  simp only [signs, List.mem_cons, not_or] at plain
  simp [Nesting.next, plain]

/-- Placeholders are made of characters of names. -/
theorem isWordChar_placeholder {d : Char} (hd : d ∈ separators) (h : c ∈ placeholder d) :
    IsWordChar c := by
  simp only [separators, List.mem_cons, List.not_mem_nil, or_false] at hd
  obtain rfl | rfl | rfl := hd <;>
    exact List.all_iff_forall_prop.mp (by decide) c h

/-- Escaping writes placeholders and leaves the characters that are not marked. -/
theorem mem_escape {marked : List Char} (hm : marked ⊆ separators) (h : c ∈ escape marked s) :
    IsWordChar c ∨ c ∈ s ∧ c ∉ marked := by
  obtain ⟨d, hd, h⟩ := List.mem_flatMap.mp h
  by_cases mark : d ∈ marked
  · rw [escapeChar_of_mem mark] at h
    exact .inl (isWordChar_placeholder (hm mark) h)
  · rw [escapeChar_of_not_mem mark, List.mem_singleton] at h
    exact .inr (h ▸ ⟨hd, mark⟩)

/-- A letter or an underscore first, and letters, digits, underscores and separators. -/
structure IsName (s : List Char) : Prop where
  begins : ∃ c ∈ s.head?, Text.isAlphabetic c = true ∨ c = '_'
  made : ∀ c ∈ s, Text.isAlphanumeric c = true ∨ c = '_' ∨ c ∈ separators

/-- A letter or an underscore first, and letters, digits and underscores. -/
structure IsIdentifier (s : List Char) : Prop where
  begins : ∃ c ∈ s.head?, Text.isAlphabetic c = true ∨ c = '_'
  made : ∀ c ∈ s, Text.isAlphanumeric c = true ∨ c = '_'

instance (s : List Char) : Decidable (IsIdentifier s) :=
  decidable_of_iff (s.head?.any (fun c => Text.isAlphabetic c || c == '_') = true ∧
      s.all (fun c => Text.isAlphanumeric c || c == '_') = true) (by
    simp only [Option.any_eq_true, List.all_eq_true, Bool.or_eq_true, beq_iff_eq]
    exact ⟨fun ⟨begins, made⟩ => ⟨begins, made⟩, fun h => ⟨h.begins, h.made⟩⟩)

namespace IsIdentifier

variable (identifier : IsIdentifier s)
include identifier

theorem isName : IsName s where
  begins := identifier.begins
  made c mem := (identifier.made c mem).imp_right .inl

theorem isWordChar (h : c ∈ s) : IsWordChar c :=
  (identifier.made c h).imp_right fun underscore => by simp [underscore]

theorem not_mem_of_sign (h : c ∈ '&' :: signs) : c ∉ s := by
  have others : ∀ c ∈ '&' :: signs, ¬ (Text.isAlphanumeric c = true ∨ c = '_') :=
    List.all_iff_forall_prop.mp (by decide)
  exact fun mem => others c h (identifier.made c mem)

/-- There is nothing to escape in an identifier. -/
theorem escape_eq : escape separators s = s := by
  have marks : ∀ c ∈ separators, c ∈ '&' :: signs := List.all_iff_forall_prop.mp (by decide)
  exact escape_of_disjoint fun c mem mark => identifier.not_mem_of_sign (marks c mark) mem

end IsIdentifier

/-- A text that can stand in single quotes, and in which nothing is called. -/
structure IsKey (s : List Char) : Prop where
  unquoted : '\'' ∉ s
  uncalled : '(' ∉ s
  literal : Literal s

inductive Place where
  | position (n : Nat)
  | key (text : String)

inductive Step where
  | property (name : String)
  | index (place : Place)

namespace Place

def index : Place → Index
  | .position n => .position n
  | .key text => .key text

def IsWritable : Place → Prop
  | .position n => 1 ≤ n ∧ n < Number.word64
  | .key text => IsKey text.toList

def inner : Place → List Char
  | .position n => (toString n).toList
  | .key text => '\'' :: (escape ['[', ']'] text.toList ++ ['\''])

def print (place : Place) : List Char := '[' :: (place.inner ++ [']'])

end Place

namespace Step

def segment : Step → Segment
  | .property name => .property name
  | .index place => .index place.index

def IsWritable : Step → Prop
  | .property name => IsName name.toList
  | .index place => place.IsWritable

def print : Step → List Char
  | .property name => '.' :: escape separators name.toList
  | .index place => place.print

end Step

def print (root : String) (steps : List Step) : List Char :=
  escape separators root.toList ++ steps.flatMap Step.print

namespace IsName

variable (name : IsName s)
include name

theorem isWordChar (h : c ∈ escape separators s) : IsWordChar c := by
  obtain word | ⟨mem, unmarked⟩ := mem_escape (List.Subset.refl _) h
  · exact word
  · obtain alphanumeric | rfl | mark := name.made c mem
    · exact .inl alphanumeric
    · exact .inr (by decide)
    · exact absurd mark unmarked

theorem not_mem (h : c ∈ signs) : c ∉ escape separators s :=
  fun mem => (name.isWordChar mem).not_sign h

theorem escape_begins :
    ∃ c ∈ (escape separators s).head?, Text.isAlphabetic c = true ∨ c = '_' := by
  obtain ⟨c, head, begins⟩ := name.begins
  obtain ⟨rest, rfl⟩ := List.head?_eq_some_iff.mp head
  have letters : ∀ c ∈ separators, Text.isAlphabetic c = false ∧ c ≠ '_' :=
    List.all_iff_forall_prop.mp (by decide)
  have unmarked : c ∉ separators := fun mark =>
    begins.elim (ne_true_of_eq_false (letters c mark).1) (letters c mark).2
  refine ⟨c, ?_, begins⟩
  simp [escapeChar_of_not_mem unmarked]

theorem escape_ne_nil : escape separators s ≠ [] := Text.ne_nil_of_head name.escape_begins

theorem begins_append (t : List Char) : ∃ c ∈ (escape separators s ++ t).head?, IsWordChar c := by
  refine Text.head_append ?_ t
  obtain ⟨c, head, letter | rfl⟩ := name.escape_begins
  · exact ⟨c, head, .inl (by rw [Text.isAlphanumeric, letter, Bool.true_or])⟩
  · exact ⟨'_', head, .inr (by decide)⟩

theorem escape_ends : ∃ c ∈ (escape separators s).getLast?, IsWordChar c :=
  ⟨_, List.getLast_mem_getLast? name.escape_ne_nil,
    name.isWordChar (List.getLast_mem name.escape_ne_nil)⟩

/-- No scan stops inside what is printed. -/
theorem closed (hp : ∀ c, p c → c ∈ dividers) : Closed p {} (escape separators s) := by
  have sub : dividers ⊆ signs := by decide
  exact .of_steady (fun _ h => (name.isWordChar h).next 0)
    fun _ _ h divides => name.not_mem (sub (hp _ divides)) h

theorem literal : Literal s :=
  literal_of_not_mem fun mem => absurd (name.made _ mem) (by decide)

theorem translateEscapes : Plan.translateEscapes (escape separators s) = s :=
  translateEscapes_escape (List.Subset.refl _) name.literal

end IsName

/-- No quote in a key is taken for its end, and no bracket for the end of its place. -/
theorem IsKey.not_mem_escape (key : IsKey s) (h : c ∈ ['\'', '[', ']', '(']) :
    c ∉ escape ['[', ']'] s := by
  have sub : ['\'', '[', ']', '('] ⊆ signs := by decide
  intro mem
  obtain word | ⟨mem, unmarked⟩ := mem_escape (by decide) mem
  · exact word.not_sign (sub h)
  · simp only [List.mem_cons, List.not_mem_nil, or_false, not_or] at h unmarked
    obtain rfl | opening | closing | rfl := h
    · exact key.unquoted mem
    · exact unmarked.1 opening
    · exact unmarked.2 closing
    · exact key.uncalled mem

theorem natOf_toString (n : Nat) : Number.natOf (toString n).toList = n := by
  have digits : (toString n).toList = Nat.toDigits 10 n := Nat.toList_repr
  rw [digits]
  exact Nat.ofDigitChars_toDigits (by decide) (by decide)

theorem isWordChar_of_mem_toString {n : Nat} (h : c ∈ (toString n).toList) : IsWordChar c :=
  .inl (Text.isAlphanumeric_of_isDigit (Text.isDigit_of_mem_toString h))

theorem toString_ne_nil (n : Nat) : (toString n).toList ≠ [] := by simp

/-- A position is read back from its digits. -/
theorem position_toString (raw : List Char) {n : Nat} (fits : 1 ≤ n ∧ n < Number.word64) :
    position raw (toString n).toList = .ok n := by
  have some : (n == 0) = false := by simpa using Nat.ne_of_gt fits.1
  simp only [position, natOf_toString, some, Bool.false_eq_true, if_false, if_pos fits.2]

theorem solid_quoted (s : List Char) : Text.Solid ('\'' :: (s ++ ['\''])) := by
  have quote : Text.isBlank '\'' = false := by decide
  exact ⟨⟨_, rfl, quote⟩, ⟨'\'', by simp [List.getLast?_cons], quote⟩⟩

theorem unquote?_quoted (s : List Char) : unquote? ('\'' :: (s ++ ['\''])) = some s := by
  rw [unquote?, Text.trim_of_solid (solid_quoted s)]
  simp

namespace Place.IsWritable

variable {place : Place} (writable : place.IsWritable)
include writable

/-- No bracket in a place is taken for its end, and nothing in it for a call. -/
theorem not_mem (h : c ∈ ['[', ']', '(']) : c ∉ place.inner := by
  have sub : ['[', ']', '('] ⊆ signs := by decide
  cases place with
  | position n => exact fun mem => (isWordChar_of_mem_toString mem).not_sign (sub h)
  | key text =>
    have quote : c ≠ '\'' := by
      rintro rfl
      exact absurd h (by decide)
    have escaped := IsKey.not_mem_escape writable (List.mem_cons_of_mem _ h)
    simp [Place.inner, quote, escaped]

theorem solid : Text.Solid place.inner := by
  cases place with
  | position n =>
    have visible : ∀ c ∈ (toString n).toList, Text.isBlank c = false :=
      fun c h => (isWordChar_of_mem_toString h).not_blank
    exact Text.solid_of_visible (toString_ne_nil n) visible
  | key text => exact solid_quoted _

theorem closed (hp : ∀ c, p c → c ∈ dividers) : Closed p {} place.print := by
  have bracket : ¬ p '[' := fun divides => absurd (hp _ divides) (by decide)
  have quote : ¬ p '\'' := fun divides => absurd (hp _ divides) (by decide)
  refine .bracketed bracket ?_
  cases place with
  | position n =>
    have inside : Nesting.isOutside ⟨1, none⟩ ≠ true := by decide
    exact .of_steady (fun c h => (isWordChar_of_mem_toString h).next 1) (absurd · inside)
  | key text => exact .quoted quote (IsKey.not_mem_escape writable (by decide))

theorem index (raw : List Char) : Plan.index raw place.inner = .ok place.index := by
  cases place with
  | position n =>
    have some : (toString n).toList.isEmpty = false := by simp
    have digits : (toString n).toList.all Char.isDigit = true :=
      List.all_eq_true.mpr fun c h => Text.isDigit_of_mem_toString h
    rw [Plan.index, Place.inner, some, if_neg Bool.false_ne_true, if_pos digits,
      position_toString raw writable]
    rfl
  | key text =>
    have read : translateEscapes (escape ['[', ']'] text.toList) = text.toList :=
      translateEscapes_escape (by decide) writable.literal
    simp [Plan.index, Place.inner, Place.index, unquote?_quoted, read]

end Place.IsWritable

end Plan

end GoalScript
