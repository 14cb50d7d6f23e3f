import Mathlib.Data.List.Infix
import GoalScript.Proofs.Layout
import GoalScript.Proofs.Operands
import GoalScript.Proofs.ReadBack
import GoalScript.Proofs.Removal

namespace GoalScript

namespace Text

variable {part s t : List Char} {c : Char}

/-- An occurrence does not begin in a text without its first character. -/
theorem cons_infix_append (absent : c ∉ s) : c :: part <:+: s ++ t ↔ c :: part <:+: t := by
  induction s with
  | nil => rfl
  | cons d s ih =>
    obtain ⟨other, absent⟩ := not_or.mp (List.mem_cons.not.mp absent)
    rw [List.cons_append, List.infix_cons_iff, ih absent, List.cons_prefix_cons]
    exact or_iff_right fun begins => other begins.1

/-- Nor does it end in a text without its last character. -/
theorem concat_infix_append (absent : c ∉ t) : part ++ [c] <:+: s ++ t ↔ part ++ [c] <:+: s := by
  have backwards : c ∉ t.reverse := fun mem => absent (List.mem_reverse.mp mem)
  rw [← List.reverse_infix, List.reverse_append, List.reverse_append, List.reverse_singleton,
    List.singleton_append, cons_infix_append backwards, ← List.reverse_concat, List.reverse_infix]

theorem exists_word_of_mem (visible : isBlank c = false) (h : c ∈ s) :
    ∃ word ∈ words s, c ∈ word := by
  have split : ∃ word ∈ s.splitOnP isBlank, c ∈ word := by
    induction s with
    | nil => cases h
    | cons d s ih =>
      rw [List.splitOnP_cons_eq_if_modifyHead]
      rcases List.mem_cons.mp h with rfl | later
      · obtain ⟨first, rest, split⟩ := List.exists_cons_of_ne_nil (List.splitOnP_ne_nil isBlank s)
        rw [visible, if_neg Bool.false_ne_true, split]
        exact ⟨c :: first, List.mem_cons_self, List.mem_cons_self⟩
      · obtain ⟨word, mem, within⟩ := ih later
        split
        · exact ⟨word, List.mem_cons_of_mem _ mem, within⟩
        · obtain ⟨first, rest, split⟩ := List.exists_cons_of_ne_nil (List.ne_nil_of_mem mem)
          rw [split] at mem ⊢
          rcases List.mem_cons.mp mem with rfl | mem
          · exact ⟨d :: word, List.mem_cons_self, List.mem_cons_of_mem _ within⟩
          · exact ⟨word, List.mem_cons_of_mem _ mem, within⟩
  obtain ⟨word, mem, within⟩ := split
  refine ⟨word, List.mem_filter.mpr ⟨mem, ?_⟩, within⟩
  simpa using List.ne_nil_of_mem within

end Text

namespace Plan

variable {raw name : List Char} {s : List Char} {op : Operator} {spaced : Bool} {k x : String}
  {names : List String}

/-- Neither a number nor a duration nor a name has a quote in it. -/
theorem operand?_eq_none (quote : '\'' ∈ s) : operand? s op spaced = none := by
  have number {word : List Char} (quote : '\'' ∈ word) : Number.read word = none := by
    rw [Option.eq_none_iff_forall_ne_some]
    exact fun v read => Number.isQuiet_of_read read '\'' quote (by decide)
  have time : duration? s = none := by
    obtain ⟨word, mem, quote⟩ := Text.exists_word_of_mem (by decide) quote
    unfold duration?
    split
    · rename_i amount unit two
      rw [two] at mem
      simp only [List.mem_cons, List.not_mem_nil, or_false] at mem
      rcases mem with rfl | rfl
      · simp [number quote]
      · simp [secondsPerUnit?_eq_none (by decide) (by decide) quote]
    · rfl
  have foreign : (Text.trimWhile (· == '%') s).all isReferenceChar = false :=
    List.all_eq_false.mpr ⟨'\'', Text.mem_trimWhile (by decide) quote, by decide⟩
  simp [operand?, number quote, time, foreign]

/-- A quote behind a name makes a name of it that nothing is calculated with. -/
theorem splitArithmetic_append_eq_none (closed : Closed (· = '.') {} name)
    (hides : Hides IsOperator {} s) (quote : '\'' ∈ s) : splitArithmetic (name ++ s) = none := by
  by_contra calculated
  obtain ⟨front, op, back, last⟩ := exists_lastOperator closed hides calculated
  have operators : Hides IsOperator {} (back ++ s) :=
    hides_append.mpr ⟨last.operators, last.closed.symm ▸ hides⟩
  have kept : '\'' ∈ Text.trim (back ++ s) :=
    Text.mem_trimWhile (by decide) (List.mem_append_right back quote)
  rw [last.parts, List.append_assoc, List.cons_append,
    splitArithmetic_eq last.present last.outside last.star operators, operand?_eq_none kept,
    Option.map_none, ite_self] at calculated
  exact calculated rfl

/-- A text that can stand in quotes: it ends neither them nor the brackets around them, and holds no
placeholder. -/
structure IsQuotable (s : List Char) : Prop where
  unquoted : '\'' ∉ s
  unclosed : ']' ∉ s
  literal : Literal s

def quoted (k : String) : List Char := '[' :: '\'' :: (k.toList ++ ['\'', ']'])

def keyed (names : List String) (k : String) : List Char :=
  names.flatMap (fun x => '.' :: x.toList) ++ quoted k

def steps (names : List String) (k : String) : List Segment :=
  names.map .property ++ [.index (.key k)]

theorem splitName_quoted (unbracketed : '[' ∉ s) : splitName (s ++ quoted k) = (s, quoted k) := by
  have before : ∀ c ∈ s, (c != '[') = true := Text.forall_bne unbracketed
  rw [splitName, List.takeWhile_append_of_pos before, List.dropWhile_append_of_pos before]
  simp [quoted]

theorem laid_of_splitName {text first inner : List Char} {rest : List (List Char)}
    {indexes : List Segment} {groups : List (List Segment)}
    (split : splitTop '.' text = first :: rest) (parts : splitName first = (s, inner))
    (some : s ≠ []) (unqueried : isQueryToken inner = false)
    (indexed : Plan.brackets text inner = .ok indexes) (grouped : Grouped rest groups) :
    Laid text first rest (String.ofList (translateEscapes s)) indexes groups := by
  refine ⟨split, ?_, ?_, ?_, ?_, grouped⟩ <;> rw [parts]
  · simpa using some
  · exact unqueried
  · exact indexed

/-- Where a token has a parenthesis it calls something. -/
theorem method_of_token {segments : List Segment} (call : '(' ∈ s)
    (h : Plan.token raw s = .ok segments) : ∃ name args, .method name args ∈ segments := by
  unfold Plan.token at h
  split at h
  · split at h
    · cases h
    · obtain ⟨more, -, h⟩ := Resolved.bind_eq_ok.mp h
      cases h
      exact ⟨_, _, List.mem_cons_self⟩
  · rename_i none
    have other := List.dropWhile_eq_nil_iff.mp none '(' call
    simp at other

namespace IsIdentifier

variable (identifier : IsIdentifier x.toList)
include identifier

theorem unrooted : ∃ c ∈ x.toList.head?, c ≠ '$' := by
  obtain ⟨c, head, -⟩ := identifier.begins
  refine ⟨c, head, ?_⟩
  rintro rfl
  exact identifier.not_mem_of_sign (by decide) (List.mem_of_mem_head? head)

theorem isStep : IsStep x.toList :=
  isStep_of_begins identifier.unrooted
    (isQueryToken_of_isChain (isChain_of_not_mem (identifier.not_mem_of_sign (by decide))))

theorem token (raw : List Char) : Plan.token raw x.toList = .ok [.property x] := by
  have writable : Token.IsWritable ⟨x, []⟩ := ⟨identifier.isName, List.forall_mem_nil _⟩
  have read := writable.token raw
  rwa [Token.text, identifier.escape_eq, List.flatMap_nil, List.append_nil] at read

end IsIdentifier

namespace IsQuotable

variable (key : IsQuotable k.toList)
include key

theorem closed {p : Char → Prop} (hp : ∀ c, p c → c ∈ dividers) : Closed p {} (quoted k) := by
  have bracket : ¬ p '[' := fun divides => absurd (hp _ divides) (by decide)
  have quote : ¬ p '\'' := fun divides => absurd (hp _ divides) (by decide)
  simpa [quoted] using Closed.bracketed bracket (.quoted quote key.unquoted)

theorem brackets (raw : List Char) : Plan.brackets raw (quoted k) = .ok [.index (.key k)] := by
  have text : quoted k = '[' :: ('\'' :: (k.toList ++ ['\'']) ++ ']' :: []) := by simp [quoted]
  have inside : ']' ∉ '\'' :: (k.toList ++ ['\'']) := by simp [key.unclosed]
  rw [text, brackets_cons [] inside, Text.trim_of_solid (solid_quoted _), brackets_nil]
  simp [Plan.index, unquote?_quoted, translateEscapes_of_literal key.literal, bind, Except.bind,
    pure, Except.pure]

/-- What makes a query of a key is the mark of a filter, and nothing else. -/
theorem isQueryToken_iff {s : List Char} (opening : '[' ∉ s) (closing : ']' ∉ s) :
    isQueryToken (s ++ quoted k) = true ↔ "[?".toList <:+: k.toList := by
  have star : ¬ "[*]".toList <:+: s ++ quoted k := by
    have text : s ++ quoted k = (s ++ '[' :: '\'' :: k.toList) ++ ['\''] ++ [']'] := by
      simp [quoted]
    rw [text, List.infix_concat_iff, not_or]
    constructor
    · rintro ⟨before, same⟩
      have backwards := congrArg List.reverse same
      simp at backwards
    · intro within
      have mem := within.subset (a := ']') (by simp)
      simp [closing, key.unclosed] at mem
  have filter : "[?".toList <:+: s ++ quoted k ↔ "[?".toList <:+: k.toList := by
    have begins : ¬ ['[', '?'] <+: quoted k := by simp [quoted]
    have quote : '[' ∉ ['\''] := by decide
    have behind : '?' ∉ ['\'', ']'] := by decide
    calc ['[', '?'] <:+: s ++ quoted k
      _ ↔ ['[', '?'] <:+: quoted k := Text.cons_infix_append opening
      _ ↔ ['[', '?'] <:+: ['\''] ++ (k.toList ++ ['\'', ']']) :=
        List.infix_cons_iff.trans (or_iff_right begins)
      _ ↔ ['['] ++ ['?'] <:+: k.toList ++ ['\'', ']'] := Text.cons_infix_append quote
      _ ↔ ['['] ++ ['?'] <:+: k.toList := Text.concat_infix_append behind
  rw [isQueryToken, Bool.or_eq_true, Text.contains_iff, Text.contains_iff, filter]
  exact or_iff_right star

theorem token (identifier : IsIdentifier x.toList) (uncalled : '(' ∉ k.toList) (raw : List Char) :
    Plan.token raw (x.toList ++ quoted k) = .ok [.property x, .index (.key k)] := by
  have outside : '(' ∉ x.toList := identifier.not_mem_of_sign (by decide)
  have none : (x.toList ++ quoted k).dropWhile (· != '(') = [] := by
    refine List.dropWhile_eq_nil_iff.mpr (Text.forall_bne ?_)
    simp [quoted, outside, uncalled]
  have undigit : (x.toList ++ quoted k).all Char.isDigit = false :=
    List.all_eq_false.mpr ⟨'[', by simp [quoted], by decide⟩
  have some : x.toList.isEmpty = false := by
    simpa using Text.ne_nil_of_head identifier.begins
  have solid : Text.Solid x.toList :=
    Text.solid_of_visible (Text.ne_nil_of_head identifier.begins)
      fun c mem => (identifier.isWordChar mem).not_blank
  have plain : '&' ∉ x.toList := identifier.not_mem_of_sign (by decide)
  simp [Plan.token, none, undigit, splitName_quoted (identifier.not_mem_of_sign (by decide)), some,
    Text.trim_of_solid solid, translateEscapes_of_not_mem plain, key.brackets, Except.map]

theorem isStep_iff (identifier : IsIdentifier x.toList) :
    IsStep (x.toList ++ quoted k) ↔ ¬ "[?".toList <:+: k.toList := by
  have asks := key.isQueryToken_iff (identifier.not_mem_of_sign (by decide))
    (identifier.not_mem_of_sign (by decide))
  rw [← asks, Bool.not_eq_true]
  exact ⟨IsStep.unqueried, isStep_of_begins (Text.head_append identifier.unrooted _)⟩

end IsQuotable

def pieces (k : String) : List Char → List String → List (List Char)
  | x, [] => [x ++ quoted k]
  | x, y :: names => x :: pieces k y.toList names

/-- A scan for points sees nothing of a key in quotes. -/
theorem splitTop_keyed (key : IsQuotable k.toList) (closed : Closed (· = '.') {} s)
    (identifiers : ∀ x ∈ names, IsIdentifier x.toList) :
    splitTop '.' (s ++ keyed names k) = pieces k s names := by
  induction names generalizing s with
  | nil => exact splitTop_eq_singleton (closed.append (key.closed (by simp [dividers])))
  | cons y names ih =>
    obtain ⟨first, rest⟩ := List.forall_mem_cons.mp identifiers
    have text : s ++ keyed (y :: names) k = s ++ '.' :: (y.toList ++ keyed names k) := by
      simp [keyed]
    have point : Closed (· = '.') {} y.toList := closed_of_isIdentifier (by simp [dividers]) first
    rw [text, splitTop_append closed, ih point rest]
    rfl

section

variable (key : IsQuotable k.toList)
  (identifiers : ∀ y ∈ x :: names, IsIdentifier y.toList)
include key identifiers

/-- Behind a name the pieces stand for the properties and the key. -/
theorem grouped_pieces (unasked : ¬ "[?".toList <:+: k.toList) (uncalled : '(' ∉ k.toList) :
    ∃ groups, Grouped (pieces k x.toList names) groups ∧
      groups.flatten = .property x :: steps names k := by
  induction names generalizing x with
  | nil =>
    obtain ⟨identifier, -⟩ := List.forall_mem_cons.mp identifiers
    have step := (key.isStep_iff identifier).mpr unasked
    exact ⟨_, .cons ⟨step, key.token identifier uncalled _⟩ .nil, rfl⟩
  | cons y names ih =>
    obtain ⟨identifier, rest⟩ := List.forall_mem_cons.mp identifiers
    obtain ⟨groups, grouped, flat⟩ := ih rest
    refine ⟨_, .cons ⟨identifier.isStep, identifier.token _⟩ grouped, ?_⟩
    rw [List.flatten_cons, flat]
    rfl

/-- If none of them is a query or a call, no character of the key makes one of it. -/
theorem not_mem_of_grouped {groups : List (List Segment)}
    (grouped : Grouped (pieces k x.toList names) groups)
    (uncalled : ∀ name args, .method name args ∉ groups.flatten) :
    ¬ "[?".toList <:+: k.toList ∧ '(' ∉ k.toList := by
  induction names generalizing x groups with
  | nil =>
    obtain ⟨identifier, -⟩ := List.forall_mem_cons.mp identifiers
    obtain _ | ⟨⟨step, read⟩, ⟨⟩⟩ := grouped
    refine ⟨(key.isStep_iff identifier).mp step, fun call => ?_⟩
    obtain ⟨name, args, mem⟩ := method_of_token (by simp [quoted, call]) read
    exact uncalled name args (by simpa using mem)
  | cons y names ih =>
    obtain ⟨-, rest⟩ := List.forall_mem_cons.mp identifiers
    obtain _ | ⟨-, later⟩ := grouped
    exact ih rest later fun name args mem => uncalled name args (by simp [mem])

end

theorem queryFree_steps (names : List String) (k : String) : QueryFree (steps names k) := by
  intro path mem
  simp [steps] at mem

theorem not_method_mem_steps (names : List String) (k name : String) (args : List Argument) :
    .method name args ∉ steps names k := by simp [steps]

/-- No character of the key makes it a query, and none makes it a call behind a name. -/
def StaysWhole (names : List String) (k : String) : Prop :=
  ¬ "[?".toList <:+: k.toList ∧ (names = [] ∨ '(' ∉ k.toList)

section

variable (raw : List Char) (key : IsQuotable k.toList) (closed : Closed (· = '.') {} s)
  (unbracketed : '[' ∉ s) (some : s ≠ [])
include key closed unbracketed some

/-- At the root the mark of a filter is all that matters. -/
theorem path_quoted_iff : path raw (s ++ quoted k) =
    .ok (String.ofList (translateEscapes s), [.index (.key k)]) ↔
      ¬ "[?".toList <:+: k.toList := by
  have split : splitTop '.' (s ++ quoted k) = [s ++ quoted k] :=
    splitTop_eq_singleton (closed.append (key.closed (by simp [dividers])))
  have parts : splitName (s ++ quoted k) = (s, quoted k) := splitName_quoted unbracketed
  have asks : isQueryToken (quoted k) = true ↔ "[?".toList <:+: k.toList :=
    key.isQueryToken_iff (s := []) List.not_mem_nil List.not_mem_nil
  rw [← asks, Bool.not_eq_true]
  constructor
  · intro read
    obtain ⟨first, rest, indexes, groups, laid, -⟩ := laid_of_path (queryFree_steps [] k) read
    obtain ⟨rfl, -⟩ := List.cons.inj (split.symm.trans laid.split)
    have unasked := laid.unqueried
    rwa [parts] at unasked
  · intro unasked
    have laid := laid_of_splitName split parts some unasked (key.brackets _) .nil
    exact laid.path_eq

/-- Behind a name so is a parenthesis. -/
theorem path_keyed_iff {y : String} (identifiers : ∀ x ∈ y :: names, IsIdentifier x.toList) :
    path raw (s ++ keyed (y :: names) k) =
      .ok (String.ofList (translateEscapes s), steps (y :: names) k) ↔
        ¬ "[?".toList <:+: k.toList ∧ '(' ∉ k.toList := by
  have split : splitTop '.' (s ++ keyed (y :: names) k) = s :: pieces k y.toList names :=
    splitTop_keyed key closed identifiers
  constructor
  · intro read
    obtain ⟨first, rest, indexes, groups, laid, flat⟩ :=
      laid_of_path (queryFree_steps (y :: names) k) read
    obtain ⟨rfl, rfl⟩ := List.cons.inj (split.symm.trans laid.split)
    refine not_mem_of_grouped key identifiers laid.grouped fun name args mem => ?_
    exact not_method_mem_steps (y :: names) k name args
      (flat ▸ List.mem_append_right indexes mem)
  · rintro ⟨unasked, uncalled⟩
    obtain ⟨groups, grouped, flat⟩ := grouped_pieces key identifiers unasked uncalled
    have laid := laid_of_splitName split (splitName_of_not_mem unbracketed) some
      (isQueryToken_of_isChain .nil) (brackets_nil _) grouped
    rw [laid.path_eq, flat]
    rfl

/-- No character of the key makes it a query, and none makes it a call behind a name: such a key,
and no other, is read as a key. -/
theorem path_iff_staysWhole (identifiers : ∀ x ∈ names, IsIdentifier x.toList) :
    path raw (s ++ keyed names k) = .ok (String.ofList (translateEscapes s), steps names k) ↔
      StaysWhole names k := by
  cases names with
  | nil => exact (path_quoted_iff raw key closed unbracketed some).trans (by simp [StaysWhole])
  | cons y names =>
    have read := path_keyed_iff raw key closed unbracketed some identifiers
    exact read.trans (by simp [StaysWhole])

end

/-- The expression that leads from a root by names to a key. -/
def keyedExpr (root : String) (names : List String) (k : String) : String :=
  String.ofList (root.toList ++ keyed names k)

/-- A scan for operators sees nothing of a key in quotes. -/
theorem hides_keyed (key : IsQuotable k.toList)
    (identifiers : ∀ x ∈ names, IsIdentifier x.toList) : Hides IsOperator {} (keyed names k) := by
  have operators (c : Char) (operator : IsOperator c) : c ∈ dividers := operator.mem_dividers
  have names : Closed IsOperator {} (names.flatMap fun x => '.' :: x.toList) :=
    .flatMap fun x mem => closed_point.append (closed_of_isIdentifier operators (identifiers x mem))
  exact (names.append (key.closed operators)).hides

/-- Behind any root such a key, and no other, is read as a key. -/
theorem IsRoot.parse_keyed_iff {r : String} {plan : Plan} (root : IsRoot r plan)
    (key : IsQuotable k.toList) (identifiers : ∀ x ∈ names, IsIdentifier x.toList) :
    parse (keyedExpr r names k) = .ok {
      expr := keyedExpr r names k, root := plan.root, segments := steps names k } ↔
        StaysWhole names k := by
  have ends : (r.toList ++ keyed names k).getLast? = some ']' := by
    simp [keyed, quoted, List.getLast?_cons, List.getLast?_append]
  have framed : Framed (r.toList ++ keyed names k) :=
    ⟨root.framed.begins_append _, ⟨']', ends, by decide, by decide⟩⟩
  have split : splitArithmetic (r.toList ++ keyed names k) = none :=
    splitArithmetic_append_eq_none root.hides (hides_keyed key identifiers)
      (by simp [keyed, quoted])
  have parsed := parse_of_bare framed split
  dsimp only [Option.map_none, Option.getD_none] at parsed
  rw [← path_iff_staysWhole (r.toList ++ keyed names k) key root.hides root.unbracketed
    (Text.ne_nil_of_head root.framed.begins) identifiers, ← (path_eq_root root.found.2).2.2,
    keyedExpr, parsed, Resolved.map_eq_ok]
  constructor
  · rintro ⟨⟨root, segments⟩, read, same⟩
    simp only [Plan.mk.injEq, true_and, and_true] at same
    obtain ⟨rfl, rfl⟩ := same
    exact read
  · exact fun read => ⟨_, read, rfl⟩

end Plan

namespace Value

/-- Members can be written along the keys: what is on the way is an object, or nothing yet. -/
def Opens : List String → Value → Prop
  | [], _ => True
  | key :: keys, v => (∃ members, v.opened (.key key) = .object members) ∧
      Opens keys ((v.step? (.key key)).getD .null)

/-- A value can be assigned along keys that are open. -/
theorem assign_of_opens {keys : List String} {expr : String} {new v : Value}
    (opens : v.Opens keys) : ∃ w, assign expr new (keys.map .key) v = .ok w := by
  induction keys generalizing v with
  | nil => exact ⟨new, rfl⟩
  | cons key keys ih =>
    obtain ⟨⟨members, target⟩, rest⟩ := opens
    rw [getD_step?_of_object target] at rest
    obtain ⟨inner, below⟩ := ih rest
    refine ⟨.object (Table.insert members (storedName members key) inner), ?_⟩
    rw [List.map_cons, assign]
    · exact Resolved.bind_eq_ok.mpr ⟨inner, below, rfl⟩
    · exact target

end Value

namespace Store

variable {s : Store} {r expr k : String} {names : List String} {root plan : Plan} {v w : Value}
  {path : List Place}

theorem placeOf_of_place? {segment : Segment} {place : Place}
    (leads : segment.place? = some place) : placeOfBy s.getValue plan segment = .ok place := by
  cases segment with
  | index i => cases i <;> cases leads <;> rfl
  | _ => cases leads <;> rfl

/-- Segments that lead somewhere on their own lead a writer there. -/
theorem places_of_place? (leads : plan.segments.map Segment.place? = path.map some) :
    s.places plan = .ok path := by
  have pairs : List.Forall₂ (· = ·) (plan.segments.map Segment.place?) (path.map some) := by
    rw [leads]
    exact List.forall₂_refl _
  rw [List.forall₂_map_left_iff, List.forall₂_map_right_iff] at pairs
  exact Resolved.mapM_eq_ok_iff.mpr (pairs.imp fun _ _ => placeOf_of_place?)

/-- What a name stands for is what an expression that starts from it writes to. -/
theorem current_of_getValue (named : root.Names r) (parsed : Plan.parse expr = .ok plan)
    (same : plan.key = root.key) (held : s.getValue r = .ok v) :
    s.current plan.key (s.scopeOf expr) = v := by
  have stored := s.inScope_scopeOf expr
  rw [rootOf_of_parse parsed] at stored
  rw [getValue, get_name named, found?] at held
  rw [current, stored, same]
  cases found : (s.lookup? root.key).filter Variable.isSet <;> rw [found] at held <;> cases held <;>
    rfl

theorem map_place?_steps (names : List String) (k : String) :
    (Plan.steps names k).map Segment.place? = ((names ++ [k]).map Place.key).map some := by
  simp [Plan.steps, Segment.place?, Function.comp_def]

section

variable (named : Plan.IsRoot r root) (held : s.getValue r = .ok v)
  (parsed : Plan.parse expr = .ok { expr, root := root.root, segments := Plan.steps names k })
include named held parsed

/-- An entry under the key is read where it is stored. -/
theorem getValue_of_stored (there : v.follow? ((names ++ [k]).map Place.key) = some w) :
    s.getValue expr = .ok w := by
  have some : v ≠ .null := by
    rintro rfl
    cases names <;> cases there
  have timeless : ∀ t, v ≠ .date t := by
    rintro t rfl
    cases names <;> cases there
  obtain ⟨free, x, found, set, rfl⟩ :=
    set_of_getValue named.parsed named.whole named.plain held some timeless
  exact getValue_of_segmentsBy parsed rfl free found set
    (Value.segmentsBy_of_follow? (map_place?_steps names k) there)

/-- Where members can be written on the way, so can an entry under the key, and it is read back. -/
theorem put_of_opens (opens : v.Opens (names ++ [k])) (new : Value) :
    ∃ t, s.put expr new = .ok t ∧ t.getValue expr = .ok new.structured := by
  have free : ¬ root.IsReserved := by
    intro reserved
    obtain rfl := getValue_reserved named.parsed named.whole named.plain reserved held
    cases names <;> obtain ⟨⟨members, target⟩, -⟩ := opens <;> cases target
  let plan : Plan := { expr, root := root.root, segments := Plan.steps names k }
  have located : s.places plan = .ok ((names ++ [k]).map Place.key) :=
    places_of_place? (map_place?_steps names k)
  have current : s.current plan.key (s.scopeOf expr) = v :=
    current_of_getValue ⟨named.parsed, named.whole, named.plain, free⟩ parsed rfl held
  obtain ⟨x, assigned⟩ : ∃ x, Value.assign plan.expr new.structured _ v = .ok x :=
    Value.assign_of_opens opens
  have put : s.put expr new = .ok (s.stored plan (s.scopeOf expr) x) := by
    rw [putsTo_of_places parsed rfl free located, current, assigned]
    rfl
  refine ⟨_, put, ?_⟩
  obtain ⟨-, -, path, y, located', written, set, found⟩ :=
    put_cases parsed (fun settings => free (.inr (.inr settings))) put
  obtain rfl := Except.ok.inj (located.symm.trans located')
  exact getValue_of_segmentsBy parsed rfl free found set
    (Value.segmentsBy_of_follow? (map_place?_steps names k) written.follow?)

end

/-- A key in quotes is that key and nothing else, wherever it stands, unless it holds the mark of a
filter, or a parenthesis behind a name. What is stored under it is read, and where there are objects
on the way, or nothing yet, what is put there is stored under it and read back. -/
theorem quoted_keys_stand_for_themselves (r k : String) (names : List String) (root : Plan)
    (named : Plan.IsRoot r root) (identifiers : ∀ x ∈ names, Plan.IsIdentifier x.toList)
    (key : Plan.IsQuotable k.toList) :
    let expr := Plan.keyedExpr r names k
    (Plan.parse expr = .ok { expr, root := root.root, segments := Plan.steps names k } ↔
      Plan.StaysWhole names k) ∧
    (Plan.StaysWhole names k → ∀ (s : Store) (v : Value), s.getValue r = .ok v →
      (∀ w, v.follow? ((names ++ [k]).map Place.key) = some w → s.getValue expr = .ok w) ∧
      (v.Opens (names ++ [k]) → ∀ new,
        ∃ t, s.put expr new = .ok t ∧ t.getValue expr = .ok new.structured)) := by
  intro expr
  have read := named.parse_keyed_iff key identifiers
  refine ⟨read, fun whole s v held => ⟨fun w there => ?_, fun opens new => ?_⟩⟩
  · exact getValue_of_stored named held (read.mpr whole) there
  · exact put_of_opens named held (read.mpr whole) opens new

def recording (name : String) (members : List (String × Value)) : Store :=
  { memory := { vars := [(name, { name, value := .object members })] } }

/-- A key full of signs behind a property, and one with parentheses at the root. -/
theorem quoted_keys_stand_for_themselves_signs :
    let s := recording "price-list" [("Bread", .object [("a.b-1,[*\"", .number 2.0)])]
    Plan.IsRoot "price-list" { expr := "price-list", root := "price-list" } ∧
      (∀ x ∈ ["bread"], Plan.IsIdentifier x.toList) ∧
      Plan.IsQuotable "a.b-1,[*\"".toList ∧ Plan.IsQuotable "f(x)".toList ∧
      Plan.StaysWhole ["bread"] "a.b-1,[*\"" ∧
      Plan.parse "price-list.bread['a.b-1,[*\"']" =
        .ok { expr := "price-list.bread['a.b-1,[*\"']", root := "price-list",
              segments := [.property "bread", .index (.key "a.b-1,[*\"")] } ∧
      s.getValue "price-list.bread['a.b-1,[*\"']" = .ok (.number 2.0) ∧
      ∃ t, s.put "price-list['f(x)']" (.text "[true]") = .ok t ∧
        t.getValue "price-list['f(x)']" = .ok (.list [.bool true]) := by
  intro s
  let root : Plan := { expr := "price-list", root := "price-list" }
  have named : Plan.IsRoot "price-list" root :=
    ⟨by with_unfolding_all rfl, rfl, rfl, ⟨⟨'p', rfl, by decide⟩, ⟨'t', rfl, by decide⟩⟩, rfl⟩
  have held : s.getValue "price-list" = .ok (.object [("Bread",
      .object [("a.b-1,[*\"", .number 2.0)])]) := by with_unfolding_all rfl
  have bread : ∀ x ∈ ["bread"], Plan.IsIdentifier x.toList :=
    List.forall_mem_singleton.mpr (by decide)
  have signs : Plan.IsQuotable "a.b-1,[*\"".toList := ⟨by decide, by decide, by decide⟩
  have call : Plan.IsQuotable "f(x)".toList := ⟨by decide, by decide, by decide⟩
  have whole : Plan.StaysWhole ["bread"] "a.b-1,[*\"" := ⟨by decide, .inr (by decide)⟩
  obtain ⟨parsed, stored⟩ :=
    quoted_keys_stand_for_themselves "price-list" "a.b-1,[*\"" ["bread"] root named bread signs
  obtain ⟨-, put⟩ := quoted_keys_stand_for_themselves "price-list" "f(x)" [] root named
    (List.forall_mem_nil _) call
  have text : Plan.keyedExpr "price-list" ["bread"] "a.b-1,[*\"" =
      "price-list.bread['a.b-1,[*\"']" := by decide
  have text' : Plan.keyedExpr "price-list" [] "f(x)" = "price-list['f(x)']" := by decide
  rw [text] at parsed stored
  rw [text'] at put
  refine ⟨named, bread, signs, call, whole, parsed.mpr whole,
    (stored whole s _ held).1 _ (by with_unfolding_all rfl), ?_⟩
  exact (put ⟨by decide, .inl rfl⟩ s _ held).2 ⟨⟨_, rfl⟩, trivial⟩ (.text "[true]")

/-- Behind a property a parenthesis in the key is taken for a call, and anywhere the mark of a
filter for a query: what is stored under such keys cannot be read, or not be written. -/
theorem parentheses_and_filters_break_quoted_keys :
    let s := recording "r" [("a", .object [("f(x)", .number 1.0)]), ("[?", .number 3.0)]
    Plan.IsRoot "r" { expr := "r", root := "r" } ∧ Plan.IsIdentifier "a".toList ∧
      Plan.IsQuotable "f(x)".toList ∧ Plan.IsQuotable "[?".toList ∧
      Plan.keyedExpr "r" ["a"] "f(x)" = "r.a['f(x)']" ∧
      s.getValue "r.a" = .ok (.object [("f(x)", .number 1.0)]) ∧
      s.getValue "r.a['f(x)']" = .error (.invalidExpression "r.a['f(x)']" "unexpected '']'") ∧
      Plan.keyedExpr "r" [] "[?" = "r['[?']" ∧
      Plan.parse "r['[?']" =
        .ok { expr := "r['[?']", root := "r", segments := [.query "$['[?']"] } ∧
      s.put "r['[?']" (.number 4.0) = .error (.invalidExpression "r['[?']"
        "cannot assign through a method call or JSON path") := by
  intro s
  have named : Plan.IsRoot "r" { expr := "r", root := "r" } :=
    ⟨by with_unfolding_all rfl, rfl, rfl, ⟨⟨'r', rfl, by decide⟩, ⟨'r', rfl, by decide⟩⟩, rfl⟩
  exact ⟨named, by decide, ⟨by decide, by decide, by decide⟩, ⟨by decide, by decide, by decide⟩,
    by decide, by with_unfolding_all rfl, by with_unfolding_all rfl, by decide,
    by with_unfolding_all rfl, by with_unfolding_all rfl⟩

end Store

end GoalScript
