import Mathlib.Data.List.TakeWhile
import GoalScript.Number.Reader
import GoalScript.Proofs.Printing

namespace GoalScript

namespace Text

/-- A letter of either case is a letter of every script. -/
theorem isAlphanumeric_of_toLower {c : Char} (h : 97 ≤ c.toLower.toNat ∧ c.toLower.toNat ≤ 122) :
    isAlphanumeric c = true := by
  have range : 65 ≤ c.toNat ∧ c.toNat ≤ 90 ∨ 97 ≤ c.toNat ∧ c.toNat ≤ 122 := by
    rw [toNat_toLower] at h
    split at h <;> omega
  have letter : isAlphabetic c = true := by
    rw [isAlphabetic, alphabeticSpans, within, within]
    rcases range with upper | lower
    · rw [if_neg (by omega), decide_eq_true upper.2, Bool.true_or]
    · rw [if_neg (by omega), if_neg (by omega), decide_eq_true lower.2, Bool.true_or, Bool.or_true]
  rw [isAlphanumeric, letter, Bool.true_or]

end Text

namespace Number

open Text (isAlphanumeric)

variable {s t : List Char} {c : Char} {v : Float} {n : Nat} {i : Int}

def IsUnsigned (t : List Char) : Prop := '+' ∉ t ∧ '-' ∉ t

instance (t : List Char) : Decidable (IsUnsigned t) := inferInstanceAs (Decidable (_ ∧ _))

structure IsFigure (t : List Char) : Prop where
  some : t ≠ []
  made : ∀ c ∈ t, isAlphanumeric c = true ∨ c = '.'

/-- What stands before the sign of an exponent: up to the point, and with a mark at the end. -/
structure IsStem (s : List Char) : Prop where
  parts : ∃ whole fraction, s = whole ++ fraction ∧
    (∀ c ∈ whole, isAlphanumeric c = true ∨ c ∈ ['+', '-']) ∧
    (fraction = [] ∨ ∃ rest, fraction = '.' :: rest ∧ (∀ c ∈ rest, isAlphanumeric c = true) ∧
      ∃ c ∈ rest, c.isDigit = false)
  ends : ∃ c ∈ s.getLast?, isAlphanumeric c = true

theorem isAlphanumeric_of_mark (h : c ∈ ['e', 'E']) : isAlphanumeric c = true := by
  have letters : ∀ c ∈ ['e', 'E'], isAlphanumeric c = true :=
    List.all_iff_forall_prop.mp (by decide)
  exact letters c h

theorem IsFigure.isUnsigned (h : IsFigure t) : IsUnsigned t := by
  have unlike : ∀ c ∈ ['+', '-'], ¬ (isAlphanumeric c = true ∨ c = '.') :=
    List.all_iff_forall_prop.mp (by decide)
  exact ⟨fun plus => unlike _ (by decide) (h.made _ plus),
    fun minus => unlike _ (by decide) (h.made _ minus)⟩

theorem IsFigure.words (h : IsFigure t) : ∀ c ∈ t, Plan.IsWordChar c ∨ c ∈ Plan.dividers :=
  fun c mem => (h.made c mem).imp .inl fun point => by simp [point, Plan.dividers]

theorem IsStem.words (h : IsStem s) : ∀ c ∈ s, Plan.IsWordChar c ∨ c ∈ Plan.dividers := by
  have sub : ['+', '-'] ⊆ Plan.dividers := by decide
  obtain ⟨whole, fraction, rfl, made, point⟩ := h.parts
  intro c mem
  rcases List.mem_append.mp mem with mem | mem
  · exact (made c mem).imp .inl (sub ·)
  · rcases point with rfl | ⟨rest, rfl, behind, -⟩
    · cases mem
    · rcases List.mem_cons.mp mem with rfl | mem
      · exact .inr (by decide)
      · exact .inl (.inl (behind c mem))

theorem digits_of_readNat (h : readNat s = some n) : s ≠ [] ∧ ∀ c ∈ s, c.isDigit = true := by
  unfold readNat at h
  split at h
  · cases h
  · rename_i digits
    simpa using digits

theorem letters_of_readWord (h : readWord s = some v) :
    s ≠ [] ∧ ∀ c ∈ s, isAlphanumeric c = true := by
  have known : s.map Char.toLower ∈ ["inf".toList, "infinity".toList, "nan".toList] := by
    unfold readWord at h
    dsimp only at h
    split at h
    · rename_i found
      simp only [Bool.or_eq_true, beq_iff_eq] at found
      rcases found with found | found <;> simp [found]
    · split at h
      · rename_i found
        simp only [beq_iff_eq] at found
        simp [found]
      · cases h
  have letters : ∀ word ∈ ["inf".toList, "infinity".toList, "nan".toList], word ≠ [] ∧
      word.all (fun c => 97 ≤ c.toNat ∧ c.toNat ≤ 122) = true := by decide
  obtain ⟨some, lower⟩ := letters _ known
  constructor
  · rintro rfl
    exact some rfl
  · intro c mem
    exact Text.isAlphanumeric_of_toLower
      (List.all_iff_forall_prop.mp lower _ (List.mem_map_of_mem mem))

/-- Digits, before which a sign may stand. -/
theorem readInt_cases (h : readInt s = some i) :
    ∃ sign digits, s = sign ++ digits ∧ sign ∈ [[], ['+'], ['-']] ∧ digits ≠ [] ∧
      ∀ c ∈ digits, c.isDigit = true := by
  have signed (sign : List Char) {rest : List Char} (same : s = sign ++ rest)
      (known : sign ∈ [[], ['+'], ['-']])
      (read : ∃ n, readNat rest = some n) : ∃ sign digits, s = sign ++ digits ∧
        sign ∈ [[], ['+'], ['-']] ∧ digits ≠ [] ∧ ∀ c ∈ digits, c.isDigit = true := by
    obtain ⟨n, read⟩ := read
    exact ⟨sign, rest, same, known, digits_of_readNat read⟩
  unfold readInt at h
  split at h
  · obtain ⟨i, read, -⟩ := Option.map_eq_some_iff.mp h
    obtain ⟨n, read, -⟩ := Option.bind_eq_some_iff.mp read
    exact signed ['-'] rfl (by simp) ⟨n, read⟩
  · obtain ⟨n, read, -⟩ := Option.map_eq_some_iff.mp h
    exact signed ['+'] rfl (by simp) ⟨n, read⟩
  · obtain ⟨n, read, -⟩ := Option.map_eq_some_iff.mp h
    exact signed [] rfl (by simp) ⟨n, read⟩

/-- Nothing, or a mark, and digits before which a sign may stand. -/
theorem readExponent_cases (h : readExponent s = some i) :
    s = [] ∨ ∃ mark sign digits, s = mark :: (sign ++ digits) ∧ mark ∈ ['e', 'E'] ∧
      sign ∈ [[], ['+'], ['-']] ∧ digits ≠ [] ∧ ∀ c ∈ digits, c.isDigit = true := by
  unfold readExponent at h
  split at h
  · exact .inl rfl
  · obtain ⟨sign, digits, rfl, signs, some, all⟩ := readInt_cases h
    exact .inr ⟨'e', sign, digits, rfl, by simp, signs, some, all⟩
  · obtain ⟨sign, digits, rfl, signs, some, all⟩ := readInt_cases h
    exact .inr ⟨'E', sign, digits, rfl, by simp, signs, some, all⟩
  · cases h

/-- Digits, a point and digits behind it, and an exponent. -/
theorem readMagnitude_cases (h : readMagnitude s = some v) :
    ∃ whole fraction tail i, s = whole ++ (fraction ++ tail) ∧ (∀ c ∈ whole, c.isDigit = true) ∧
      (fraction = [] ∨ ∃ digits, fraction = '.' :: digits ∧ ∀ c ∈ digits, c.isDigit = true) ∧
      whole ++ fraction ≠ [] ∧ readExponent tail = some i := by
  have digit {s : List Char} : ∀ c ∈ s.takeWhile Char.isDigit, c.isDigit = true :=
    List.all_eq_true.mp List.all_takeWhile
  have parts := List.takeWhile_append_dropWhile (p := Char.isDigit) (l := s)
  unfold readMagnitude at h
  dsimp only at h
  split at h
  · rename_i rest point
    split at h
    · cases h
    · obtain ⟨i, exponent, -⟩ := Option.map_eq_some_iff.mp h
      refine ⟨s.takeWhile Char.isDigit, '.' :: rest.takeWhile Char.isDigit, _, i, ?_, digit,
        .inr ⟨_, rfl, digit⟩, by simp, exponent⟩
      rw [List.cons_append, List.takeWhile_append_dropWhile, ← point, parts]
  · split at h
    · cases h
    · rename_i some
      obtain ⟨i, exponent, -⟩ := Option.map_eq_some_iff.mp h
      refine ⟨s.takeWhile Char.isDigit, [], _, i, parts.symm, digit, .inl rfl, ?_, exponent⟩
      simpa using some

/-- A figure is read without looking for a sign. -/
theorem read_of_isFigure (h : IsFigure t) : read t = readUnsigned t := by
  have unsigned := h.isUnsigned
  unfold read
  split
  · exact absurd List.mem_cons_self unsigned.2
  · exact absurd List.mem_cons_self unsigned.1
  · rfl

theorem isFigure_of_digits (some : t ≠ []) (digits : ∀ c ∈ t, c.isDigit = true) : IsFigure t :=
  ⟨some, fun c mem => .inl (Text.isAlphanumeric_of_isDigit (digits c mem))⟩

theorem read_digits (present : t ≠ []) (digits : ∀ c ∈ t, c.isDigit = true) :
    ∃ v, read t = some v := by
  have all : t.takeWhile Char.isDigit = t := List.takeWhile_eq_self_iff.mpr digits
  have none : t.dropWhile Char.isDigit = [] := List.dropWhile_eq_nil_iff.mpr digits
  have some : t.isEmpty = false := by simpa using present
  refine ⟨ofDecimal (natOf (t ++ [])) 0, ?_⟩
  rw [read_of_isFigure (isFigure_of_digits present digits), readUnsigned, readMagnitude]
  simp [all, none, some, readExponent]

/-- What stands before an exponent is made of digits and a point. -/
theorem isAlphanumeric_of_parts {whole fraction : List Char}
    (digits : ∀ c ∈ whole, c.isDigit = true)
    (point : fraction = [] ∨ ∃ rest, fraction = '.' :: rest ∧ ∀ c ∈ rest, c.isDigit = true)
    (mem : c ∈ whole ++ fraction) : isAlphanumeric c = true ∨ c = '.' := by
  rcases List.mem_append.mp mem with mem | mem
  · exact .inl (Text.isAlphanumeric_of_isDigit (digits c mem))
  · rcases point with rfl | ⟨rest, rfl, behind⟩
    · cases mem
    · rcases List.mem_cons.mp mem with rfl | mem
      · exact .inr rfl
      · exact .inl (Text.isAlphanumeric_of_isDigit (behind c mem))

/-- Digits and a point, and the mark of an exponent. -/
theorem isStem_of_parts {whole fraction : List Char} {mark : Char}
    (digits : ∀ c ∈ whole, c.isDigit = true)
    (point : fraction = [] ∨ ∃ rest, fraction = '.' :: rest ∧ ∀ c ∈ rest, c.isDigit = true)
    (known : mark ∈ ['e', 'E']) : IsStem (whole ++ fraction ++ [mark]) := by
  have word := isAlphanumeric_of_mark known
  have undigit : mark.isDigit = false := by
    have letters : ∀ c ∈ ['e', 'E'], c.isDigit = false :=
      List.all_iff_forall_prop.mp (by decide)
    exact letters mark known
  refine ⟨?_, mark, by simp, word⟩
  rcases point with rfl | ⟨rest, rfl, behind⟩
  · refine ⟨whole ++ [mark], [], by simp, fun c mem => .inl ?_, .inl rfl⟩
    rcases List.mem_append.mp mem with mem | mem
    · exact Text.isAlphanumeric_of_isDigit (digits c mem)
    · rwa [List.mem_singleton.mp mem]
  · refine ⟨whole, '.' :: (rest ++ [mark]), by simp,
      fun c mem => .inl (Text.isAlphanumeric_of_isDigit (digits c mem)),
      .inr ⟨rest ++ [mark], rfl, fun c mem => ?_, mark, by simp, undigit⟩⟩
    rcases List.mem_append.mp mem with mem | mem
    · exact Text.isAlphanumeric_of_isDigit (behind c mem)
    · rwa [List.mem_singleton.mp mem]

/-- A number without a sign at its beginning is a figure, or has one sign behind the mark of an
exponent. -/
theorem readUnsigned_cases (h : readUnsigned s = some v) : IsFigure s ∨
    ∃ stem sign digits, s = stem ++ sign :: digits ∧ IsStem stem ∧ sign ∈ ['+', '-'] ∧
      digits ≠ [] ∧ ∀ c ∈ digits, c.isDigit = true := by
  rcases Option.or_eq_some_iff.mp h with magnitude | ⟨-, word⟩
  · obtain ⟨whole, fraction, tail, i, rfl, digits, point, present, exponent⟩ :=
      readMagnitude_cases magnitude
    rcases readExponent_cases exponent with rfl | ⟨mark, sign, after, rfl, known, signs, some, all⟩
    · rw [List.append_nil]
      exact .inl ⟨present, fun c mem => isAlphanumeric_of_parts digits point mem⟩
    · simp only [List.mem_cons, List.not_mem_nil, or_false] at signs
      rcases signs with rfl | rfl | rfl
      · left
        refine ⟨by simp, fun c mem => ?_⟩
        rw [← List.append_assoc, List.nil_append] at mem
        rcases List.mem_append.mp mem with mem | mem
        · exact isAlphanumeric_of_parts digits point mem
        · rcases List.mem_cons.mp mem with rfl | mem
          · exact .inl (isAlphanumeric_of_mark known)
          · exact .inl (Text.isAlphanumeric_of_isDigit (all c mem))
      · exact .inr ⟨_, '+', after, by simp, isStem_of_parts digits point known, by simp, some, all⟩
      · exact .inr ⟨_, '-', after, by simp, isStem_of_parts digits point known, by simp, some, all⟩
  · obtain ⟨some, letters⟩ := letters_of_readWord word
    exact .inl ⟨some, fun c mem => .inl (letters c mem)⟩

/-- Only digits stand before the point of a number. -/
theorem digits_of_readUnsigned {before after : List Char}
    (h : readUnsigned (before ++ '.' :: after) = some v) (point : '.' ∉ before) :
    ∀ c ∈ before, c.isDigit = true := by
  have within : '.' ∈ before ++ '.' :: after := by simp
  rcases Option.or_eq_some_iff.mp h with magnitude | ⟨-, word⟩
  · obtain ⟨whole, fraction, tail, i, split, digits, fractional, -, exponent⟩ :=
      readMagnitude_cases magnitude
    have plain : '.' ∉ whole := fun mem => absurd (digits _ mem) (by decide)
    rcases fractional with rfl | ⟨behind, rfl, -⟩
    · exfalso
      rw [split] at within
      rcases List.mem_append.mp within with mem | mem
      · exact plain mem
      · rcases readExponent_cases exponent with rfl | ⟨mark, sign, after, rfl, known, signs, -, all⟩
        · cases mem
        · simp only [List.mem_cons, List.not_mem_nil, or_false] at known signs
          rcases List.mem_cons.mp mem with rfl | mem
          · simp at known
          · rcases List.mem_append.mp mem with mem | mem
            · rcases signs with rfl | rfl | rfl <;> simp at mem
            · exact absurd (all _ mem) (by decide)
    · have same := congrArg (List.takeWhile (· != '.')) split
      simp only [List.takeWhile_append_of_pos (Text.forall_bne point), List.cons_append,
        List.takeWhile_append_of_pos (Text.forall_bne plain), List.takeWhile_cons,
        bne_self_eq_false, Bool.false_eq_true, if_false, List.append_nil] at same
      rwa [same]
  · exact absurd ((letters_of_readWord word).2 _ within) (by decide)

theorem IsStem.cons {sign : Char} (h : IsStem s) (known : sign ∈ ['+', '-']) :
    IsStem (sign :: s) := by
  obtain ⟨whole, fraction, rfl, made, point⟩ := h.parts
  exact ⟨⟨sign :: whole, fraction, rfl, List.forall_mem_cons.mpr ⟨.inr known, made⟩, point⟩,
    Text.last_append [sign] h.ends⟩

/-- A number has no signs, or its last sign has a number without signs behind it, and before it
nothing or the stem of a number with an exponent. -/
theorem read_cases (h : read t = some v) : IsFigure t ∨
    ∃ stem sign rest w, t = stem ++ sign :: rest ∧ (stem = [] ∨ IsStem stem) ∧ sign ∈ ['+', '-'] ∧
      IsFigure rest ∧ read rest = some w := by
  have behind {sign : Char} {s : List Char} {v : Float} (known : sign ∈ ['+', '-'])
      (unsigned : readUnsigned s = some v) : ∃ stem sign' rest w,
        sign :: s = stem ++ sign' :: rest ∧ (stem = [] ∨ IsStem stem) ∧ sign' ∈ ['+', '-'] ∧
          IsFigure rest ∧ read rest = some w := by
    rcases readUnsigned_cases unsigned with
      figure | ⟨stem, sign', digits, rfl, h, known', some, all⟩
    · exact ⟨[], sign, s, v, rfl, .inl rfl, known, figure,
        (read_of_isFigure figure).trans unsigned⟩
    · obtain ⟨w, value⟩ := read_digits some all
      exact ⟨sign :: stem, sign', digits, w, rfl, .inr (h.cons known), known',
        isFigure_of_digits some all, value⟩
  unfold read at h
  split at h
  · obtain ⟨w, unsigned, -⟩ := Option.map_eq_some_iff.mp h
    exact .inr (behind (by simp) unsigned)
  · exact .inr (behind (by simp) h)
  · rcases readUnsigned_cases h with figure | ⟨stem, sign, digits, rfl, stemmed, known, some, all⟩
    · exact .inl figure
    · obtain ⟨w, value⟩ := read_digits some all
      exact .inr ⟨stem, sign, digits, w, rfl, .inr stemmed, known, isFigure_of_digits some all,
        value⟩

/-- A scan passes over everything that a number is written with. -/
theorem words_of_read (h : read t = some v) : ∀ c ∈ t, Plan.IsWordChar c ∨ c ∈ Plan.dividers := by
  rcases read_cases h with figure | ⟨stem, sign, rest, w, rfl, stemmed, known, figure, -⟩
  · exact figure.words
  · have sub : ['+', '-'] ⊆ Plan.dividers := by decide
    intro c mem
    rcases List.mem_append.mp mem with mem | mem
    · rcases stemmed with rfl | stemmed
      · cases mem
      · exact stemmed.words c mem
    · rcases List.mem_cons.mp mem with rfl | mem
      · exact .inr (sub known)
      · exact figure.words c mem

/-- Nothing in a number opens or closes anything. -/
theorem isQuiet_of_read (h : read t = some v) : Plan.IsQuiet t :=
  Plan.isQuiet_of_words (words_of_read h)

end Number

end GoalScript
