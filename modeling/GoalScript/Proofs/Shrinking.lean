import GoalScript.Plan.Parser
import GoalScript.Proofs.Writes

namespace GoalScript

namespace Text

theorem length_trimWhile_le (p : Char → Bool) (s : List Char) :
    (trimWhile p s).length ≤ s.length := by
  have front := (List.dropWhile_suffix p (l := s)).length_le
  have back := (List.dropWhile_suffix p (l := (s.dropWhile p).reverse)).length_le
  simp only [trimWhile, trimRightWhile, List.length_reverse] at back ⊢
  omega

theorem length_trim_le (s : List Char) : (trim s).length ≤ s.length := length_trimWhile_le _ s

theorem splitFrom_ne_nil (separator : List Char) (skip : Nat) (s : List Char) :
    splitFrom separator skip s ≠ [] := by
  induction s generalizing skip with
  | nil => simp [splitFrom]
  | cons c rest ih =>
    unfold splitFrom
    split
    · exact ih _
    · split
      · simp
      · split <;> simp

theorem length_intercalate_cons (separator piece : List Char) {pieces : List (List Char)}
    (h : pieces ≠ []) :
    (separator.intercalate (piece :: pieces)).length =
      piece.length + separator.length + (separator.intercalate pieces).length := by
  rw [List.intercalate_cons_of_ne_nil h, List.length_append, List.length_append]

/-- Characters that still belong to a separator are dropped. -/
theorem length_intercalate_splitFrom_le {separator replacement : List Char}
    (h : replacement.length ≤ separator.length) (skip : Nat) (s : List Char) :
    (replacement.intercalate (splitFrom separator skip s)).length ≤ s.length - skip := by
  induction s generalizing skip with
  | nil => simp [splitFrom, List.intercalate]
  | cons c rest ih =>
    unfold splitFrom
    split
    · have shorter := ih (skip - 1)
      simp only [List.length_cons]
      omega
    · rename_i none
      split
      · rename_i found
        have fits := (List.isPrefixOf_iff_prefix.mp found).length_le
        have shorter := ih (separator.length - 1)
        rw [length_intercalate_cons _ _ (splitFrom_ne_nil _ _ _)]
        simp only [List.length_cons, List.length_nil] at fits ⊢
        omega
      · have shorter := ih 0
        split
        · rename_i piece pieces split
          rw [split] at shorter
          cases pieces with
          | nil =>
            simp only [List.intercalate, List.intersperse, List.flatten_cons, List.flatten_nil,
              List.append_nil, List.length_cons] at shorter ⊢
            omega
          | cons next pieces =>
            rw [length_intercalate_cons _ _ (by simp)] at shorter ⊢
            simp only [List.length_cons] at shorter ⊢
            omega
        · rename_i split
          exact absurd split (splitFrom_ne_nil _ _ _)

theorem length_replace_le {part replacement : List Char} (some : part ≠ [])
    (h : replacement.length ≤ part.length) (s : List Char) :
    (replace part replacement s).length ≤ s.length := by
  have full : part.isEmpty = false := by simpa using some
  simpa [replace, splitOn, full] using length_intercalate_splitFrom_le h 0 s

end Text

def Argument.inner? : Argument → Option String
  | .literal _ => none
  | .reference expr => some expr

def Segment.inner : Segment → List String
  | .index (.lookup word) => [word]
  | .method _ args => args.filterMap Argument.inner?
  | _ => []

def Arithmetic.inner? (a : Arithmetic) : Option String :=
  match a.operand with
  | .reference expr => some expr
  | _ => none

/-- The expressions that may be resolved on the way. -/
def Plan.inner (plan : Plan) : List String :=
  plan.segments.flatMap Segment.inner ++ (plan.arithmetic.bind Arithmetic.inner?).toList

namespace Plan

/-- Placeholders are longer than what they stand for. -/
theorem length_translateEscapes_le (s : List Char) : (translateEscapes s).length ≤ s.length := by
  unfold translateEscapes
  have dots : (Text.replace "&dot;".toList ['.'] s).length ≤ s.length :=
    Text.length_replace_le (by decide) (by decide) s
  generalize Text.replace "&dot;".toList ['.'] s = t at dots
  have opens : (Text.replace "&lb;".toList ['['] t).length ≤ t.length :=
    Text.length_replace_le (by decide) (by decide) t
  generalize Text.replace "&lb;".toList ['['] t = u at opens
  have closes : (Text.replace "&rb;".toList [']'] u).length ≤ u.length :=
    Text.length_replace_le (by decide) (by decide) u
  omega

theorem length_dropDangling_le (s : List Char) : (dropDangling s).length ≤ s.length := by
  fun_induction dropDangling s with
  | case1 => exact Nat.le_refl _
  | case2 c rest dangling ih =>
    have dropped := (List.dropWhile_suffix Text.isBlank (l := rest)).length_le
    simp only [List.length_cons]
    omega
  | case3 => exact Nat.le_refl _

/-- Stripping makes no text longer. -/
theorem length_strip_le (raw : List Char) : (strip raw).length ≤ raw.length := by
  have leading (c : Char) (s : List Char) : (dropLeading c s).length ≤ s.length := by
    unfold dropLeading
    split
    · split <;> simp
    · simp
  have trailing (c : Char) (s : List Char) : (dropTrailing c s).length ≤ s.length := by
    unfold dropTrailing
    split <;> simp
  have trimmed := Text.length_trim_le raw
  have first := leading '%' (Text.trim raw)
  have last := trailing '%' (dropLeading '%' (Text.trim raw))
  have inner := Text.length_trim_le (dropTrailing '%' (dropLeading '%' (Text.trim raw)))
  have dropped := length_dropDangling_le
    (Text.trim (dropTrailing '%' (dropLeading '%' (Text.trim raw)))).reverse
  simp only [strip, List.length_reverse] at dropped ⊢
  omega

theorem length_le_of_mem_splitFrom {separator : Char} {n : Nesting} {s piece : List Char}
    (h : piece ∈ splitFrom separator n s) : piece.length ≤ s.length := by
  induction s generalizing n piece with
  | nil =>
    simp only [splitFrom, List.mem_singleton] at h
    simp [h]
  | cons c rest ih =>
    unfold splitFrom at h
    split at h
    · rcases List.mem_cons.mp h with rfl | later
      · simp
      · exact Nat.le_succ_of_le (ih later)
    · split at h
      · rename_i first pieces split
        rcases List.mem_cons.mp h with rfl | later
        · have shorter : first.length ≤ rest.length := ih (by rw [split]; simp)
          simpa using shorter
        · have shorter : piece.length ≤ rest.length := ih (by rw [split]; simp [later])
          exact Nat.le_succ_of_le shorter
      · obtain rfl := List.mem_singleton.mp h
        simp

/-- All is kept but the closing parenthesis. -/
theorem length_closeFrom {depth : Nat} {quote : Option Char} {s inner after : List Char}
    (h : closeFrom depth quote s = some (inner, after)) :
    inner.length + after.length + 1 = s.length := by
  induction s generalizing depth quote inner with
  | nil => cases h
  | cons c rest ih =>
    have deeper {depth : Nat} {quote : Option Char}
        (h : (closeFrom depth quote rest).map (fun found => (c :: found.1, found.2)) =
          some (inner, after)) : inner.length + after.length + 1 = (c :: rest).length := by
      obtain ⟨⟨inner', after'⟩, found, same⟩ := Option.map_eq_some_iff.mp h
      obtain ⟨rfl, rfl⟩ := Prod.mk.inj same
      have kept : inner'.length + after'.length + 1 = rest.length := ih found
      simp only [List.length_cons]
      omega
    unfold closeFrom at h
    dsimp only at h
    split at h
    · exact deeper h
    · split at h
      · exact deeper h
      · split at h
        · exact deeper h
        · split at h
          · split at h
            · cases h
              simp
            · exact deeper h
          · exact deeper h

theorem length_of_argument {s : List Char} {expr : String} (h : argument s = .reference expr) :
    expr.length < s.length := by
  have trimmed := Text.length_trim_le s
  unfold argument at h
  dsimp only at h
  split at h
  · cases h
  · split at h
    · rename_i marked
      simp only [Bool.and_eq_true, decide_eq_true_eq] at marked
      cases h
      rw [String.length_ofList, List.length_dropLast, List.length_drop]
      omega
    · split at h
      · cases h
      · split at h <;> cases h

theorem length_of_arguments {inside : List Char} {expr : String}
    (h : expr ∈ (arguments inside).filterMap Argument.inner?) : expr.length < inside.length := by
  obtain ⟨arg, mem, found⟩ := List.mem_filterMap.mp h
  have reference : arg = .reference expr := by
    cases arg with
    | literal v => cases found
    | reference inner =>
      cases found
      rfl
  unfold arguments at mem
  split at mem
  · cases mem
  · obtain ⟨piece, part, read⟩ := List.mem_map.mp mem
    have shorter := length_of_argument (read.trans reference)
    have fits := length_le_of_mem_splitFrom part
    omega

def Looks (word : String) (segments : List Segment) : Prop := .index (.lookup word) ∈ segments

variable {raw : List Char} {segments : List Segment} {word : String}

theorem Looks.mem_inner {plan : Plan} (h : Looks word plan.segments) : word ∈ plan.inner :=
  List.mem_append_left _ (List.mem_flatMap.mpr ⟨_, h, List.mem_singleton_self word⟩)

theorem length_of_index {inner : List Char} (h : index raw inner = .ok (.lookup word)) :
    word.length ≤ inner.length := by
  unfold index at h
  split at h
  · cases h
  · split at h
    · unfold position at h
      dsimp only at h
      split at h
      · cases h
      · split at h <;> cases h
    · split at h
      · cases h
      · obtain rfl := Index.lookup.inj (Except.ok.inj h)
        rw [String.length_ofList]
        exact Nat.le_trans (length_translateEscapes_le _) (Text.length_trimWhile_le _ _)

theorem length_of_brackets {rest : List Char} (h : brackets raw rest = .ok segments)
    (within : word ∈ segments.flatMap Segment.inner) : word.length < rest.length := by
  induction hn : rest.length using Nat.strongRecOn generalizing rest segments with
  | _ n ih =>
    have blanks := (List.dropWhile_suffix Text.isBlank (l := rest)).length_le
    unfold brackets at h
    split at h
    · cases h
      cases within
    · rename_i inside opened
      have inside_le : inside.length < rest.length := by
        have same := congrArg List.length opened
        simp only [Text.trimLeft, List.length_cons] at same
        omega
      split at h
      · cases h
      · rename_i c after closed
        have after_le : after.length < inside.length := by
          have dropped := (List.dropWhile_suffix (· != ']') (l := inside)).length_le
          rw [closed] at dropped
          exact dropped
        obtain ⟨i, first, h⟩ := Resolved.bind_eq_ok.mp h
        obtain ⟨more, later, h⟩ := Resolved.bind_eq_ok.mp h
        cases h
        rw [List.flatMap_cons, List.mem_append] at within
        rcases within with here | within
        · cases i with
          | lookup word' =>
            obtain rfl := List.mem_singleton.mp here
            have short := length_of_index first
            have taken := (List.takeWhile_prefix (· != ']') (l := inside)).length_le
            have trimmed := Text.length_trim_le (inside.takeWhile (· != ']'))
            omega
          | position n => cases here
          | key k => cases here
        · have shorter := ih after.length (by omega) later within rfl
          omega
    · cases h

theorem length_of_token {token : List Char} (h : Plan.token raw token = .ok segments)
    (within : word ∈ segments.flatMap Segment.inner) : word.length < token.length := by
  unfold Plan.token at h
  split at h
  · rename_i c inside opened
    have inside_le : inside.length < token.length := by
      have dropped := (List.dropWhile_suffix (· != '(') (l := token)).length_le
      rw [opened] at dropped
      exact dropped
    split at h
    · cases h
    · rename_i inner after closed
      have kept := length_closeFrom closed
      obtain ⟨more, later, h⟩ := Resolved.bind_eq_ok.mp h
      cases h
      rw [List.flatMap_cons, List.mem_append] at within
      rcases within with given | within
      · have shorter := length_of_arguments given
        omega
      · have shorter := length_of_brackets later within
        omega
  · split at h
    · obtain ⟨n, -, rfl⟩ := Resolved.map_eq_ok.mp h
      cases within
    · have rest_le := (List.dropWhile_suffix (· != '[') (l := token)).length_le
      obtain ⟨more, later, rfl⟩ := Resolved.map_eq_ok.mp h
      rw [List.flatMap_append, List.mem_append] at within
      rcases within with named | within
      · split at named <;> cases named
      · have shorter := length_of_brackets later within
        omega

theorem length_of_tokens {tokens : List (List Char)} {bound : Nat}
    (short : ∀ token ∈ tokens, token.length ≤ bound) (h : Plan.tokens raw tokens = .ok segments)
    (within : word ∈ segments.flatMap Segment.inner) : word.length < bound := by
  induction tokens generalizing segments with
  | nil =>
    cases h
    cases within
  | cons first rest ih =>
    unfold Plan.tokens at h
    dsimp only at h
    split at h
    · cases h
      cases within
    · split at h
      · cases h
        cases within
      · split at h
        · cases h
          cases within
        · obtain ⟨now, one, h⟩ := Resolved.bind_eq_ok.mp h
          obtain ⟨more, later, h⟩ := Resolved.bind_eq_ok.mp h
          cases h
          rw [List.flatMap_append, List.mem_append] at within
          rcases within with within | within
          · exact Nat.lt_of_lt_of_le (length_of_token one within) (short first List.mem_cons_self)
          · exact ih (fun token ht => short token (List.mem_cons_of_mem _ ht)) later within

/-- What is looked up for a path is shorter than the path. -/
theorem length_of_path {path : List Char} {root : String}
    (h : Plan.path raw path = .ok (root, segments))
    (within : word ∈ segments.flatMap Segment.inner) : word.length < path.length := by
  unfold Plan.path at h
  split at h
  · cases h
  · rename_i first rest pieces
    have short (token : List Char) (ht : token ∈ first :: rest) : token.length ≤ path.length := by
      have member : token ∈ splitFrom '.' {} path := by
        rw [← splitTop, pieces]
        exact ht
      exact length_le_of_mem_splitFrom member
    change (if (splitName first).1.isEmpty then _ else if isQueryToken (splitName first).2 then _
      else _) = _ at h
    split at h
    · cases h
    · split at h
      · obtain ⟨-, rfl⟩ := Prod.mk.inj (Except.ok.inj h)
        cases within
      · obtain ⟨indexes, one, h⟩ := Resolved.bind_eq_ok.mp h
        obtain ⟨more, later, h⟩ := Resolved.bind_eq_ok.mp h
        obtain ⟨-, rfl⟩ := Prod.mk.inj (Except.ok.inj h)
        rw [List.flatMap_append, List.mem_append] at within
        rcases within with within | within
        · have shorter := length_of_brackets one within
          have rest_le := (List.dropWhile_suffix (· != '[') (l := first)).length_le
          have first_le := short first List.mem_cons_self
          omega
        · exact length_of_tokens (fun token ht => short token (List.mem_cons_of_mem _ ht)) later
            within

theorem length_of_operand {right : List Char} {op : Operator} {spaced : Bool}
    (h : operand? right op spaced = some (.reference word)) : word.length ≤ right.length := by
  unfold operand? at h
  split at h
  · cases h
  · split at h
    · cases h
    · dsimp only at h
      split at h
      · cases h
        rw [String.length_ofList]
        exact Text.length_trimWhile_le _ _
      · cases h

/-- The path in front of an operator and the operand behind it share the expression. -/
theorem length_of_splitArithmetic {expr left : List Char} {arithmetic : Arithmetic}
    (h : splitArithmetic expr = some (left, arithmetic)) :
    left.length ≤ expr.length ∧
      ∀ word, arithmetic.inner? = some word → word.length < expr.length := by
  unfold splitArithmetic at h
  simp only [Option.bind_eq_bind, Option.bind_eq_some_iff] at h
  obtain ⟨place, -, op, there, h⟩ := h
  split at h
  · cases h
  · obtain ⟨operand, read, h⟩ := Option.bind_eq_some_iff.mp h
    obtain ⟨rfl, rfl⟩ := Prod.mk.inj (Option.some.inj h)
    constructor
    · have trimmed := Text.length_trim_le (expr.take place)
      have taken := List.length_take_le' place expr
      omega
    · intro word reference
      have operated : operand = .reference word := by
        cases operand with
        | reference name =>
          cases reference
          rfl
        | number x => cases reference
        | duration ms => cases reference
      have shorter := length_of_operand (operated ▸ read)
      have trimmed := Text.length_trim_le (expr.drop (place + 1))
      have within : place < expr.length := by
        by_contra beyond
        obtain ⟨c, first, -⟩ := there
        rw [List.drop_eq_nil_of_le (Nat.le_of_not_lt beyond)] at first
        cases first
      rw [List.length_drop] at trimmed
      omega

/-- The path that an expression is read from is all of it, or what stands before an operation. -/
theorem parse_cases {expr : String} {plan : Plan} (h : parse expr = .ok plan) :
    ∃ left, path expr.toList left = .ok (plan.root, plan.segments) ∧
      (plan.arithmetic = none ∧ splitArithmetic (strip expr.toList) = none ∧
          left = strip expr.toList ∨
        ∃ a, plan.arithmetic = some a ∧ splitArithmetic (strip expr.toList) = some (left, a)) := by
  unfold parse parseChars at h
  dsimp only at h
  split at h
  · cases h
  · have read {left : List Char} {arithmetic : Option Arithmetic}
        (h : (path expr.toList left).map (fun (root, segments) =>
          ({ expr := String.ofList (strip expr.toList), root, segments, arithmetic } : Plan)) =
            .ok plan) :
        path expr.toList left = .ok (plan.root, plan.segments) ∧ plan.arithmetic = arithmetic := by
      cases hp : path expr.toList left with
      | error e =>
        rw [hp] at h
        cases h
      | ok found =>
        rw [hp] at h
        cases h
        exact ⟨rfl, rfl⟩
    split at h
    · rename_i left a found
      exact ⟨left, (read h).1, .inr ⟨a, (read h).2, found⟩⟩
    · rename_i none
      exact ⟨_, (read h).1, .inl ⟨(read h).2, none, rfl⟩⟩

/-- What stands inside an expression is shorter than what is left of it when it is stripped. -/
theorem length_of_mem_inner {expr : String} {plan : Plan} (h : parse expr = .ok plan)
    (within : word ∈ plan.inner) : word.length < (strip expr.toList).length := by
  obtain ⟨left, read, cases⟩ := parse_cases h
  rcases List.mem_append.mp within with within | operand
  · have shorter := length_of_path read within
    rcases cases with ⟨-, -, rfl⟩ | ⟨a, -, found⟩
    · exact shorter
    · exact Nat.lt_of_lt_of_le shorter (length_of_splitArithmetic found).1
  · rcases cases with ⟨plain, -⟩ | ⟨a, calculated, found⟩
    · rw [plain] at operand
      cases operand
    · rw [calculated, Option.bind_some, Option.mem_toList] at operand
      exact (length_of_splitArithmetic found).2 word operand

/-- What is resolved inside an expression is shorter than it. -/
theorem length_of_parse {expr : String} {plan : Plan} (h : parse expr = .ok plan)
    (within : word ∈ plan.inner) : word.length < expr.length := by
  have shorter := length_of_mem_inner h within
  have stripped := length_strip_le expr.toList
  rw [String.length_toList] at stripped
  omega

end Plan

end GoalScript
