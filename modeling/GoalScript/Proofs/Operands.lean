import GoalScript.Proofs.Numerals
import GoalScript.Proofs.Paths
import GoalScript.Proofs.Visibility

namespace GoalScript

namespace Plan

variable {c : Char} {s core before gap t : List Char} {op : Operator} {v : Float}

/-- An expression is split at its last operator outside brackets and quotes. -/
theorem splitArithmetic_of_last (op : Operator) (front back : List Char)
    (present : Text.trim front ≠ []) (quiet : IsQuiet front)
    (star : op = .mul → front.getLast? ≠ some '.')
    (hides : Hides IsOperator {} back) (numeral : Number.read (Text.trim back) = some v) :
    splitArithmetic (front ++ op.symbol :: back) =
      some (Text.trim front, ⟨op, .number v⟩) := by
  have some : front ≠ [] := by
    rintro rfl
    exact present rfl
  have right : Text.trim back ≠ [] := by
    intro none
    rw [none] at numeral
    cases numeral
  rw [splitArithmetic_eq some (after_of_isQuiet quiet) star hides]
  simp [present, right, operand?, numeral]

theorem not_isOperator_of_isBlank (h : Text.isBlank c = true) : ¬ IsOperator c := by
  have sub : ['+', '-', '*', '/'] ⊆ '&' :: signs := by decide
  exact fun operator => not_mem_of_isBlank h (sub operator.mem)

section Figures

variable (figure : Number.IsFigure t)
include figure

theorem not_mem_of_isFigure (h : c ∈ ['%', '+', '-', '*', '/']) : c ∉ t := by
  have sub : ['%', '+', '-', '*', '/'] ⊆ signs := by decide
  intro mem
  rcases figure.made c mem with word | rfl
  · exact IsWordChar.not_sign (.inl word) (sub h)
  · exact absurd h (by decide)

theorem visible_of_isFigure : ∀ c ∈ t, Text.isBlank c = false := by
  intro c mem
  rcases figure.made c mem with word | rfl
  · exact Text.isBlank_of_isAlphanumeric word
  · decide

/-- What begins with a name and ends with a number is no more than that. -/
theorem framed_of_isFigure {front : List Char}
    (begins : ∃ c ∈ front.head?, Text.isBlank c = false ∧ c ≠ '%') : Framed (front ++ t) where
  begins := Text.head_append begins t
  ends := by
    refine Text.last_append front ⟨_, List.getLast_mem_getLast? figure.some, ?_, ?_⟩
    · exact visible_of_isFigure figure _ (List.getLast_mem figure.some)
    · exact fun sign => not_mem_of_isFigure figure sign (List.getLast_mem figure.some)

end Figures

/-- An expression whose last operator has a number behind it is the path before the operator, and
the operation. -/
theorem parse_of_last (op : Operator) (gap : List Char)
    (begins : ∃ c ∈ core.head?, Text.isBlank c = false ∧ c ≠ '%')
    (ends : ∃ c ∈ core.getLast?, Text.isBlank c = false) (quiet : IsQuiet core)
    (star : op = .mul → '.' ∉ core) (hb : ∀ c ∈ before, Text.isBlank c = true)
    (hg : ∀ c ∈ gap, Text.isBlank c = true) (figure : Number.IsFigure t)
    (numeral : Number.read t = some v) (left right : Margin) :
    let written := core ++ before ++ op.symbol :: (gap ++ t)
    let raw := left.text ++ written ++ right.text.reverse
    parse (String.ofList raw) = (path raw core).map fun (root, segments) =>
      { expr := String.ofList written, root, segments, arithmetic := some ⟨op, .number v⟩ } := by
  intro written raw
  have trimmed : Text.trim (core ++ before) = core := by
    simpa using Text.trim_append (List.forall_mem_nil _) hb
      ⟨begins.imp fun c h => ⟨h.1, h.2.1⟩, ends⟩
  have operand : Text.trim (gap ++ t) = t := by
    simpa using Text.trim_append hg (List.forall_mem_nil _)
      (Text.solid_of_visible figure.some (visible_of_isFigure figure))
  have framed : Framed written := by
    have begun := Text.head_append begins (before ++ op.symbol :: gap)
    simpa [written] using framed_of_isFigure figure begun
  have point : op = .mul → (core ++ before).getLast? ≠ some '.' := by
    intro star' last
    rcases List.mem_append.mp (List.mem_of_getLast? last) with mem | mem
    · exact star star' mem
    · exact not_mem_of_isBlank (hb _ mem) (by decide)
  have hides : Hides IsOperator {} (gap ++ t) := by
    refine hides_of_forall_not fun c mem operator => ?_
    rcases List.mem_append.mp mem with blank | mem
    · exact not_isOperator_of_isBlank (hg c blank) operator
    · exact not_mem_of_isFigure figure (List.mem_cons_of_mem _ operator.mem) mem
  have split : splitArithmetic written = some (core, ⟨op, .number v⟩) := by
    have last := splitArithmetic_of_last op (core ++ before) (gap ++ t)
      (by rw [trimmed]; exact Text.ne_nil_of_head begins)
      (quiet.append (isQuiet_of_blank hb)) point hides (by rw [operand]; exact numeral)
    rwa [trimmed] at last
  exact parse_of_framed framed split left right

/-- Words that are not all digits are a property. -/
theorem tokens_of_words (raw : List Char) (words : ∀ c ∈ s, Text.isAlphanumeric c = true)
    (named : ∃ c ∈ s, c.isDigit = false) : ∃ segments, tokens raw [s] = .ok segments := by
  have absent {c : Char} (h : c ∈ signs) : c ∉ s :=
    fun mem => IsWordChar.not_sign (.inl (words c mem)) h
  obtain ⟨c, mem, undigit⟩ := named
  have some : s.isEmpty = false := by simpa using List.ne_nil_of_mem mem
  have rooted : (s.head? == Option.some '$') = false := by
    refine beq_eq_false_iff_ne.mpr fun head => ?_
    exact absent (by decide) (List.mem_of_mem_head? head)
  have asked : isQueryToken s = false :=
    isQueryToken_of_isChain (isChain_of_not_mem (absent (by decide)))
  have called : s.dropWhile (· != '(') = [] :=
    List.dropWhile_eq_nil_iff.mpr (Text.forall_bne (absent (by decide)))
  have digits : s.all Char.isDigit = false := List.all_eq_false.mpr ⟨c, mem, by simp [undigit]⟩
  refine ⟨[.property (String.ofList (translateEscapes (Text.trim s)))], ?_⟩
  simp only [tokens, some, rooted, asked, Bool.false_eq_true, if_false, token, called, digits,
    splitName_of_not_mem (absent (by decide : '[' ∈ signs)), brackets_nil]
  rfl

/-- The name at the beginning of a path goes up to the first point. -/
theorem path_of_isQuiet (raw : List Char) {name fraction : List Char} (some : name ≠ [])
    (quiet : IsQuiet name) (plain : '.' ∉ name ∧ '&' ∉ name)
    (point : fraction = [] ∨ ∃ rest, fraction = '.' :: rest ∧
      (∀ c ∈ rest, Text.isAlphanumeric c = true) ∧ ∃ c ∈ rest, c.isDigit = false) :
    ∃ segments, path raw (name ++ fraction) = .ok (String.ofList name, segments) := by
  have bracket : '[' ∉ name := fun mem => quiet _ mem (by decide)
  have closed : Closed (· = '.') {} name := by
    refine closed_of_isQuiet quiet fun c mem same => ?_
    rw [same] at mem
    exact plain.1 mem
  obtain ⟨pieces, segments, split, read⟩ : ∃ pieces segments,
      splitTop '.' (name ++ fraction) = name :: pieces ∧ tokens raw pieces = .ok segments := by
    rcases point with rfl | ⟨rest, rfl, words, named⟩
    · refine ⟨[], [], ?_, rfl⟩
      rw [List.append_nil, splitTop_eq_singleton closed]
    · obtain ⟨segments, read⟩ := tokens_of_words raw words named
      refine ⟨[rest], segments, ?_, read⟩
      have inner : Closed (· = '.') {} rest := by
        refine closed_of_isQuiet (isQuiet_of_words fun c mem => .inl (.inl (words c mem))) ?_
        rintro c mem rfl
        exact IsWordChar.not_sign (.inl (words _ mem)) (by decide)
      rw [splitTop_append closed, splitTop_eq_singleton inner]
  have named : name.isEmpty = false := by simpa using some
  have asked : isQueryToken [] = false := isQueryToken_of_isChain .nil
  refine ⟨segments, ?_⟩
  simp only [path, split, splitName_of_not_mem bracket, named, asked, brackets_nil, read,
    translateEscapes_of_not_mem plain.2, Bool.false_eq_true, if_false]
  rfl

end Plan

def Operator.apply (op : Operator) (a b : Float) : Resolved Float :=
  match op with
  | .add => .ok (a + b)
  | .sub => .ok (a - b)
  | .mul => .ok (a * b)
  | .div => if b == 0.0 then .error (.arithmetic '/' "number" "zero") else .ok (a / b)

theorem Value.calculate_number (op : Operator) (a b : Float) :
    (number a).calculate op (number b) = (op.apply a b).map number := by
  cases op with
  | div =>
    simp only [calculate, zeroIfNull, number?, Operator.apply]
    split <;> rfl
  | _ => rfl

namespace Plan

variable {x : String} {before after t : List Char} {op : Operator} {v : Float}

theorem print_of_isIdentifier (identifier : IsIdentifier x.toList) : print x [] = x.toList := by
  rw [print, identifier.escape_eq, List.flatMap_nil, List.append_nil]

theorem framed_of_isIdentifier (identifier : IsIdentifier x.toList) : Framed x.toList := by
  have framed := framed_print identifier.isName (List.forall_mem_nil Step.IsWritable)
  rwa [print_of_isIdentifier identifier] at framed

theorem path_of_isIdentifier (identifier : IsIdentifier x.toList) (raw : List Char) :
    path raw x.toList = .ok (x, []) := by
  have printed := path_print identifier.isName (List.forall_mem_nil Step.IsWritable) raw
  rwa [print_of_isIdentifier identifier] at printed

theorem isQuiet_of_isIdentifier (identifier : IsIdentifier x.toList) : IsQuiet x.toList :=
  isQuiet_of_words fun _ mem => .inl (identifier.isWordChar mem)

theorem closed_of_isIdentifier {p : Char → Prop} (hp : ∀ c, p c → c ∈ dividers)
    (identifier : IsIdentifier x.toList) : Closed p {} x.toList := by
  have closed := identifier.isName.closed hp
  rwa [identifier.escape_eq] at closed

/-- A number that has no sign is read whole. -/
theorem parse_unsigned (op : Operator) (identifier : IsIdentifier x.toList)
    (hb : ∀ c ∈ before, Text.isBlank c = true) (ha : ∀ c ∈ after, Text.isBlank c = true)
    (figure : Number.IsFigure t) (numeral : Number.read t = some v) (left right : Margin) :
    let written := x.toList ++ before ++ op.symbol :: (after ++ t)
    parse (String.ofList (left.text ++ written ++ right.text.reverse)) =
      .ok { expr := String.ofList written, root := x, segments := [],
            arithmetic := some ⟨op, .number v⟩ } := by
  intro written
  have framed := framed_of_isIdentifier identifier
  have point : '.' ∉ x.toList := identifier.not_mem_of_sign (by decide)
  have parsed := parse_of_last op after framed.begins
    (framed.ends.imp fun c h => ⟨h.1, h.2.1⟩) (isQuiet_of_isIdentifier identifier)
    (fun _ => point) hb ha figure numeral left right
  dsimp only at parsed
  rw [path_of_isIdentifier identifier] at parsed
  exact parsed

/-- What an operation is about, as far as a sign in its number, is all one name. -/
theorem plain_of_parts {more : List Char} (identifier : IsIdentifier x.toList)
    (hb : ∀ c ∈ before, Text.isBlank c = true)
    (hm : ∀ c ∈ more, Text.isBlank c = true ∨ Text.isAlphanumeric c = true ∨ c ∈ ['+', '-']) :
    ∀ c ∈ x.toList ++ before ++ op.symbol :: more,
      c ∉ ['"', '\'', '[', ']', '(', ')', '.', '&'] := by
  have sub : ['"', '\'', '[', ']', '(', ')', '.', '&'] ⊆ '&' :: signs := by decide
  have letters : ∀ c ∈ ['"', '\'', '[', ']', '(', ')', '.', '&'],
    Text.isAlphanumeric c = false := List.all_iff_forall_prop.mp (by decide)
  have symbol : op.symbol ∉ ['"', '\'', '[', ']', '(', ')', '.', '&'] := by cases op <;> decide
  have others : ∀ c ∈ ['+', '-'], c ∉ ['"', '\'', '[', ']', '(', ')', '.', '&'] :=
    List.all_iff_forall_prop.mp (by decide)
  intro c mem ends
  rcases List.mem_append.mp mem with mem | mem
  · rcases List.mem_append.mp mem with mem | mem
    · exact identifier.not_mem_of_sign (sub ends) mem
    · exact not_mem_of_isBlank (hb c mem) (sub ends)
  · rcases List.mem_cons.mp mem with rfl | mem
    · exact symbol ends
    · rcases hm c mem with blank | letter | sign
      · exact not_mem_of_isBlank blank (sub ends)
      · rw [letters c ends] at letter
        cases letter
      · exact others c sign ends

/-- What stands before the sign of a number is the path of another variable. -/
theorem parse_of_sign (op : Operator) (more fraction : List Char) {blanks rest : List Char}
    {last : Operator} {w : Float}
    (identifier : IsIdentifier x.toList) (hb : ∀ c ∈ before, Text.isBlank c = true)
    (hm : ∀ c ∈ more, Text.isBlank c = true ∨ Text.isAlphanumeric c = true ∨ c ∈ ['+', '-'])
    (point : fraction = [] ∨ ∃ rest, fraction = '.' :: rest ∧
      (∀ c ∈ rest, Text.isAlphanumeric c = true) ∧ ∃ c ∈ rest, c.isDigit = false)
    (ends : ∃ c ∈ (op.symbol :: (more ++ fraction)).getLast?, Text.isBlank c = false)
    (hl : ∀ c ∈ blanks, Text.isBlank c = true) (sign : last ≠ .mul)
    (figure : Number.IsFigure rest) (numeral : Number.read rest = some w) (left right : Margin) :
    let written := x.toList ++ before ++ op.symbol :: (more ++ fraction) ++ blanks ++
      last.symbol :: rest
    ∃ plan, parse (String.ofList (left.text ++ written ++ right.text.reverse)) = .ok plan ∧
      x.toList ++ before ++ [op.symbol] <+: plan.root.toList ∧
      plan.arithmetic = some ⟨last, .number w⟩ := by
  intro written
  let name := x.toList ++ before ++ op.symbol :: more
  have plain : ∀ c ∈ name, c ∉ ['"', '\'', '[', ']', '(', ')', '.', '&'] :=
    plain_of_parts identifier hb hm
  have quiet : IsQuiet name := by
    have sub : ['"', '\'', '[', ']', '(', ')'] ⊆ ['"', '\'', '[', ']', '(', ')', '.', '&'] := by
      decide
    exact fun c mem nests => plain c mem (sub nests)
  have behind : IsQuiet fraction := by
    rcases point with rfl | ⟨digits, rfl, words, -⟩
    · exact fun c mem => absurd mem List.not_mem_nil
    · refine isQuiet_of_words (List.forall_mem_cons.mpr ⟨.inr (by decide), fun c mem => ?_⟩)
      exact .inl (.inl (words c mem))
  have begins : ∃ c ∈ (name ++ fraction).head?, Text.isBlank c = false ∧ c ≠ '%' := by
    have first := (framed_of_isIdentifier identifier).begins
    simpa [name] using Text.head_append first (before ++ op.symbol :: (more ++ fraction))
  have visible : ∃ c ∈ (name ++ fraction).getLast?, Text.isBlank c = false := by
    simpa [name] using Text.last_append (x.toList ++ before) ends
  have same : written = name ++ fraction ++ blanks ++ last.symbol :: ([] ++ rest) := by
    simp [written, name]
  have parsed := parse_of_last last [] begins visible (quiet.append behind)
    (fun star => absurd star sign) hl (List.forall_mem_nil _) figure numeral left right
  dsimp only at parsed
  rw [← same] at parsed
  obtain ⟨segments, read⟩ := path_of_isQuiet (left.text ++ written ++ right.text.reverse)
    (by simp [name]) quiet ⟨fun mem => plain _ mem (by decide), fun mem => plain _ mem (by decide)⟩
    point
  rw [read] at parsed
  refine ⟨_, parsed, ⟨more, ?_⟩, rfl⟩
  simp [name]

/-- A sign in a number is taken for the operator. -/
theorem parse_signed (op : Operator) {stem rest : List Char} {sign : Char} {w : Float}
    (identifier : IsIdentifier x.toList)
    (hb : ∀ c ∈ before, Text.isBlank c = true) (ha : ∀ c ∈ after, Text.isBlank c = true)
    (stemmed : stem = [] ∨ Number.IsStem stem) (signs : sign ∈ ['+', '-'])
    (figure : Number.IsFigure rest) (numeral : Number.read rest = some w) (left right : Margin) :
    let written := x.toList ++ before ++ op.symbol :: (after ++ (stem ++ sign :: rest))
    ∃ plan last, parse (String.ofList (left.text ++ written ++ right.text.reverse)) = .ok plan ∧
      x.toList ++ before ++ [op.symbol] <+: plan.root.toList ∧ last.symbol = sign ∧
      plan.arithmetic = some ⟨last, .number w⟩ := by
  intro written
  obtain ⟨last, rfl, subtracts⟩ : ∃ last : Operator, last.symbol = sign ∧ last ≠ .mul := by
    simp only [List.mem_cons, List.not_mem_nil, or_false] at signs
    obtain rfl | rfl := signs
    · exact ⟨.add, rfl, by decide⟩
    · exact ⟨.sub, rfl, by decide⟩
  rcases stemmed with rfl | stemmed
  · obtain ⟨plan, parsed, root, calculated⟩ := parse_of_sign op [] [] identifier hb
      (List.forall_mem_nil _) (.inl rfl) ⟨op.symbol, rfl, by cases op <;> decide⟩ ha subtracts
      figure numeral left right
    exact ⟨plan, last, by simpa [written] using parsed, root, rfl, calculated⟩
  · obtain ⟨whole, fraction, rfl, made, point⟩ := stemmed.parts
    have more : ∀ c ∈ after ++ whole,
        Text.isBlank c = true ∨ Text.isAlphanumeric c = true ∨ c ∈ ['+', '-'] :=
      fun c mem => (List.mem_append.mp mem).imp (ha c) (made c)
    have ends : ∃ c ∈ (op.symbol :: (after ++ whole ++ fraction)).getLast?,
        Text.isBlank c = false := by
      obtain ⟨c, last, word⟩ := Text.last_append (op.symbol :: after) stemmed.ends
      exact ⟨c, by simpa using last, Text.isBlank_of_isAlphanumeric word⟩
    obtain ⟨plan, parsed, root, calculated⟩ := parse_of_sign op _ _ identifier hb more point
      ends (List.forall_mem_nil _) subtracts figure numeral left right
    exact ⟨plan, last, by simpa [written] using parsed, root, rfl, calculated⟩

/-- An identifier is read as the name of a variable. -/
theorem parse_of_isIdentifier (identifier : IsIdentifier x.toList) :
    parse x = .ok { expr := x, root := x, segments := [], arithmetic := none } := by
  have operators : ∀ c ∈ x.toList, ¬ IsOperator c := by
    have sub : ['+', '-', '*', '/'] ⊆ '&' :: signs := by decide
    exact fun c mem operator => identifier.not_mem_of_sign (sub operator.mem) mem
  have plain := splitArithmetic_of_hides (hides_of_forall_not operators)
  have parsed := parse_of_bare (framed_of_isIdentifier identifier) plain
  dsimp only [Option.map_none, Option.getD_none] at parsed
  rwa [path_of_isIdentifier identifier, String.ofList_toList] at parsed

end Plan

namespace Store

variable {s : Store} {expr : String} {plan : Plan} {y : Variable} {op : Operator} {a b : Float}

/-- What an operation with a number makes of a variable that is a number. -/
theorem getValue_of_number (parsed : Plan.parse expr = .ok plan) (whole : plan.segments = [])
    (calculated : plan.arithmetic = some ⟨op, .number b⟩) (free : ¬ plan.IsReserved)
    (found : s.lookup? plan.key = some y) (set : y.isSet = true) (value : y.value = .number a) :
    s.getValue expr = (op.apply a b).map .number := by
  have resolved : s.get expr = s.navigateBy s.getValue plan y plan.segments := by
    rw [get_eq parsed free, found]
    simp [Option.filter, set]
  rw [getValue, resolved, navigateBy, whole, calculated]
  simp only [List.isEmpty_nil, Option.isNone_some, Bool.and_false, Bool.false_eq_true, if_false,
    segmentsBy, arithmeticBy, value, Value.calculate_number]
  cases op.apply a b <;> rfl

/-- An operation of a variable with a number is read whole if the number is written without signs:
then it calculates what the operator makes of the variable's number and of that one. With a sign in
the number it is read as another operation, on a variable whose name goes on with the operator. -/
theorem unsigned_operands_are_read_whole (x : String) (op : Operator) (before after t : List Char)
    (v : Float) (left right : Plan.Margin) (identifier : Plan.IsIdentifier x.toList)
    (hb : ∀ c ∈ before, Text.isBlank c = true) (ha : ∀ c ∈ after, Text.isBlank c = true)
    (numeral : Number.read t = some v) :
    let written := x.toList ++ before ++ op.symbol :: (after ++ t)
    let expr := String.ofList (left.text ++ written ++ right.text.reverse)
    (Number.IsUnsigned t →
      Plan.parse expr = .ok { expr := String.ofList written, root := x, segments := [],
                              arithmetic := some ⟨op, .number v⟩ } ∧
      ∀ (s : Store) n, s.getValue x = .ok (.number n) →
        s.getValue expr = (op.apply n v).map .number) ∧
    (¬ Number.IsUnsigned t → ∃ plan stem sign rest w,
      t = stem ++ sign.symbol :: rest ∧ Number.read rest = some w ∧ Plan.parse expr = .ok plan ∧
      x.toList ++ before ++ [op.symbol] <+: plan.root.toList ∧
      plan.arithmetic = some ⟨sign, .number w⟩) := by
  intro written expr
  rcases Number.read_cases numeral with figure | ⟨stem, sign, rest, w, rfl, stemmed, signs, figure,
    value⟩
  · refine ⟨fun _ => ?_, fun signed => absurd figure.isUnsigned signed⟩
    have parsed := Plan.parse_unsigned op identifier hb ha figure numeral left right
    refine ⟨parsed, fun s n number => ?_⟩
    obtain ⟨free, y, found, set, value⟩ := set_of_getValue (Plan.parse_of_isIdentifier identifier)
      rfl rfl number Value.noConfusion fun _ => Value.noConfusion
    exact getValue_of_number parsed rfl rfl free found set value
  · obtain ⟨plan, last, parsed, root, rfl, calculated⟩ := Plan.parse_signed op identifier
      hb ha stemmed signs figure value left right
    refine ⟨fun unsigned => ?_, fun _ => ⟨plan, stem, last, rest, w, rfl, value, parsed, root,
      calculated⟩⟩
    simp only [List.mem_cons, List.not_mem_nil, or_false] at signs
    rcases signs with plus | minus
    · exact absurd (by simp [plus]) unsigned.1
    · exact absurd (by simp [minus]) unsigned.2

def holding (name : String) (n : Float) : Store :=
  { memory := { vars := [(name, { name, value := .number n })] } }

/-- A fraction and an exponent without a sign. -/
theorem unsigned_operands_are_read_whole_exponent :
    ∃ v, Number.read "2.5e3".toList = some v ∧ v = 2500.0 ∧
      (holding "x" 4.0).getValue "% x * 2.5e3 %" = .ok (.number (4.0 * v)) := by
  have numeral : Number.read "2.5e3".toList = some 2500.0 := by
    with_unfolding_all rfl
  have identifier : Plan.IsIdentifier "x".toList := by decide
  have blank : ∀ c ∈ [' '], Text.isBlank c = true := List.all_iff_forall_prop.mp (by decide)
  have read := (unsigned_operands_are_read_whole "x" .mul [' '] [' '] "2.5e3".toList 2500.0
    ⟨[], some [' '], List.forall_mem_nil _, blank⟩ ⟨[], some [' '], List.forall_mem_nil _, blank⟩
    identifier blank blank numeral).1 (by decide)
  refine ⟨2500.0, numeral, rfl, ?_⟩
  exact read.2 (holding "x" 4.0) 4.0 (by with_unfolding_all rfl)

/-- A minus sign in a number is taken for the operator, and the value is counted from zero instead
of from the variable. -/
theorem signed_operands_are_torn :
    Number.read "-1".toList = some (-1.0) ∧ (holding "x" 5.0).getValue "x" = .ok (.number 5.0) ∧
      (∃ plan, Plan.parse "x*-1" = .ok plan ∧ plan.root = "x*") ∧
      (holding "x" 5.0).getValue "x*-1" = .ok (.number (0.0 - 1.0)) ∧
      (0.0 - 1.0 == (5.0 * -1.0 : Float)) = false := by
  exact ⟨by with_unfolding_all rfl, by with_unfolding_all rfl,
    Resolved.exists_of_map (by decide +kernel), by with_unfolding_all rfl, by decide +kernel⟩

end Store

end GoalScript
