import GoalScript.Proofs.Reading

namespace GoalScript

/-- A failure of the expression itself, whatever the names in it stand for. -/
inductive MemoryError.IsMisuse : MemoryError → Prop where
  | invalidExpression (expr reason : String) : IsMisuse (.invalidExpression expr reason)
  | invalidArguments (method : String) (given : Nat) (expected : String) :
    IsMisuse (.invalidArguments method given expected)
  | indexOutOfRange (expr : String) (index length : Nat) :
    IsMisuse (.indexOutOfRange expr index length)
  | arithmetic (op : Char) (left right : String) : IsMisuse (.arithmetic op left right)

/-- A failure where a path leads from a value: all but a setting that is not there. -/
def MemoryError.IsOfPath (e : MemoryError) : Prop := e.IsMisuse ∨ e.isUnknownName = true

namespace Resolved

variable {α β : Type} {P Q : MemoryError → Prop} {r : Resolved α}

/-- If it fails it fails so. -/
def Fails (P : MemoryError → Prop) (r : Resolved α) : Prop := ∀ e, r = .error e → P e

theorem fails_ok (a : α) : Fails P (.ok a : Resolved α) := nofun

theorem fails_error {e : MemoryError} (h : P e) : Fails P (.error e : Resolved α) := by
  intro e' he
  cases he
  exact h

theorem Fails.mono (h : Fails P r) (weaker : ∀ e, P e → Q e) : Fails Q r :=
  fun e he => weaker e (h e he)

theorem Fails.bind {f : α → Resolved β} (h : Fails P r) (hf : ∀ a, Fails P (f a)) :
    Fails P (r >>= f) := by
  cases r with
  | ok a => exact hf a
  | error e => exact fails_error (h e rfl)

theorem Fails.map (h : Fails P r) (f : α → β) : Fails P (r.map f) := by
  cases r with
  | ok a => exact fails_ok _
  | error e => exact fails_error (h e rfl)

theorem Fails.ofPath (h : Fails MemoryError.IsMisuse r) : Fails MemoryError.IsOfPath r :=
  h.mono fun _ => .inl

end Resolved

open Resolved

namespace Plan

def Refuses {α : Type} (r : Parsed α) : Prop := Fails MemoryError.IsMisuse r

theorem refuses_invalid {α : Type} (raw : List Char) (reason : String) :
    Refuses (invalid raw reason : Parsed α) := fails_error (.invalidExpression _ _)

theorem refuses_position (raw digits : List Char) : Refuses (position raw digits) := by
  unfold position
  dsimp only
  split
  · exact refuses_invalid _ _
  · split
    · exact fails_ok _
    · exact refuses_invalid _ _

theorem refuses_index (raw inner : List Char) : Refuses (index raw inner) := by
  unfold index
  split
  · exact refuses_invalid _ _
  · split
    · exact (refuses_position raw inner).map _
    · split <;> exact fails_ok _

theorem refuses_brackets (raw rest : List Char) : Refuses (brackets raw rest) := by
  fun_induction brackets raw rest with
  | case1 => exact fails_ok _
  | case2 => exact refuses_invalid _ _
  | case3 rest inside _ c after _ ih =>
    exact (refuses_index _ _).bind fun i => Fails.bind ih fun more => fails_ok _
  | case4 => exact refuses_invalid _ _

theorem refuses_token (raw text : List Char) : Refuses (token raw text) := by
  unfold token
  split
  · split
    · exact refuses_invalid _ _
    · exact (refuses_brackets raw _).bind fun _ => fails_ok _
  · split
    · exact (refuses_position raw text).map _
    · exact (refuses_brackets raw _).map _

theorem refuses_tokens (raw : List Char) (texts : List (List Char)) :
    Refuses (tokens raw texts) := by
  induction texts with
  | nil => exact fails_ok _
  | cons first rest ih =>
    unfold tokens
    dsimp only
    split
    · exact fails_ok _
    · split
      · exact fails_ok _
      · split
        · exact fails_ok _
        · exact (refuses_token raw first).bind fun _ => Fails.bind ih fun _ => fails_ok _

theorem refuses_path (raw text : List Char) : Refuses (path raw text) := by
  unfold path
  split
  · exact refuses_invalid _ _
  · dsimp only
    split
    · exact refuses_invalid _ _
    · split
      · exact fails_ok _
      · refine (refuses_brackets raw _).bind fun _ => ?_
        exact (refuses_tokens raw _).bind fun _ => fails_ok _

/-- An expression that cannot be read fails as such. -/
theorem refuses_parse (expr : String) : Refuses (parse expr) := by
  unfold parse parseChars
  dsimp only
  split
  · exact refuses_invalid _ _
  · exact (refuses_path _ _).map _

end Plan

namespace Query

/-- A query fails only where its path cannot be read. -/
theorem fails_parse (path : String) :
    Fails (fun e => e.isUnknownName = true) (parse path : Resolved (List Step)) := by
  unfold parse
  split
  · exact fails_ok _
  · exact fails_error rfl

end Query

def Overload.Local (o : Overload) : Prop := ∀ v args, Fails MemoryError.IsMisuse (o.apply v args)

namespace Capability

def Local (c : Capability) : Prop := ∀ o ∈ c.overloads, o.Local

@[simp] theorem fails_answer {P : MemoryError → Prop} (v : Value) :
    Fails P (.ok v : Answer) := fails_ok v

@[simp] theorem local_overload (kinds : List ArgumentKind) (f : Value → List Value → Answer) :
    Overload.Local ⟨kinds, f⟩ ↔ ∀ v args, Fails MemoryError.IsMisuse (f v args) := Iff.rfl

@[simp] theorem local_overload1 (kind : ArgumentKind) (f : Value → Value → Answer) :
    (overload1 kind f).Local ↔ ∀ v a, Fails MemoryError.IsMisuse (f v a) :=
  ⟨fun h v a => h v [a], fun h v _ => h v _⟩

@[simp] theorem local_overload2 (kind kind' : ArgumentKind)
    (f : Value → Value → Value → Answer) :
    (overload2 kind kind' f).Local ↔ ∀ v a b, Fails MemoryError.IsMisuse (f v a b) :=
  ⟨fun h v a b => h v [a, b], fun h v _ => h v _ _⟩

@[simp] theorem local_mk (name : String) (overloads : List Overload) :
    Local ⟨name, overloads⟩ ↔ ∀ o ∈ overloads, o.Local := Iff.rfl

@[simp] theorem local_plain (name : String) (f : Value → Value) : Local (plain name f) := by
  simp [plain]

@[simp] theorem local_unary (name : String) (kind : ArgumentKind) (f : Value → Value → Value) :
    Local (unary name kind f) := by
  simp [unary]

@[simp] theorem fails_addToDate (unit : Float) (v amount : Value) :
    Fails MemoryError.IsMisuse (addToDate unit v amount) := by
  unfold addToDate
  split
  · dsimp only
    split
    · exact fails_ok _
    · exact fails_error (.arithmetic _ _ _)
  · exact fails_ok _

@[simp] theorem fails_formatDate (v format : Value) :
    Fails MemoryError.IsMisuse (formatDate v format) := by
  unfold formatDate
  split
  · split
    · exact fails_ok _
    · exact fails_error (.invalidArguments _ _ _)
  · exact fails_ok _

/-- All that values can do fails for what it is given and for nothing else. -/
theorem local_of_mem_all {v : Value} {c : Capability} (h : c ∈ all v) : c.Local := by
  have shared : ∀ c ∈ common, c.Local := by simp [common]
  have own : ∀ c ∈ ofKind v, c.Local := by
    cases v with
    | text s => simp [ofKind, ofTexts]
    | list items => simp [ofKind, ofLists]
    | object members => simp [ofKind, ofObjects]
    | number x => simp [ofKind, ofNumbers]
    | date t => simp [ofKind, ofDates, datePart]
    | null => simp [ofKind]
    | bool b => simp [ofKind]
  rcases List.mem_append.mp h with member | member
  · exact own c member
  · exact shared c member

/-- A capability fails in no other way than a path may. -/
theorem fails_invoke (v : Value) (name : String) (args : List Value) (asProperty : Bool) :
    Fails MemoryError.IsOfPath (invoke v name args asProperty) := by
  unfold invoke
  split
  · refine fails_error (.inr ?_)
    unfold missing
    dsimp only
    split <;> rfl
  · rename_i c found
    split
    · rename_i o accepted
      have possible : c ∈ all v := List.mem_of_find?_eq_some found
      exact (local_of_mem_all possible o (List.mem_of_find?_eq_some accepted) v args).ofPath
    · exact fails_error (.inl (.invalidArguments _ _ _))

end Capability

namespace Value

theorem fails_property (v : Value) (name : String) :
    Fails MemoryError.IsOfPath (v.property name) := by
  unfold property
  split
  · split
    · exact fails_ok _
    · split
      · exact Capability.fails_invoke _ _ _ _
      · exact fails_ok _
  · split
    · exact Capability.fails_invoke _ _ _ _
    · exact (((Query.fails_parse _).map _).map _).mono fun _ => .inr
  · split
    · exact Capability.fails_invoke _ _ _ _
    · exact fails_ok _
  · exact Capability.fails_invoke _ _ _ _

theorem fails_atPosition (expr : String) (v : Value) (n : Nat) :
    Fails MemoryError.IsOfPath (v.atPosition expr n) := by
  unfold atPosition
  split
  · split
    · exact fails_error (.inl (.indexOutOfRange _ _ _))
    · split
      · exact fails_ok _
      · exact fails_error (.inl (.indexOutOfRange _ _ _))
  · exact fails_ok _
  · exact fails_ok _
  · exact fails_error (.inr rfl)

theorem fails_atKey (expr : String) (v : Value) (key : String) :
    Fails MemoryError.IsOfPath (v.atKey expr key) := by
  unfold atKey
  split
  · exact fails_ok _
  · exact fails_ok _
  · exact fails_error (.inr rfl)

theorem fails_atWord (expr : String) (v : Value) (word : String) (meaning : Value) :
    Fails MemoryError.IsOfPath (v.atWord expr word meaning) := by
  unfold atWord
  split
  · exact fails_atKey _ _ _
  · split
    · exact fails_atPosition _ _ _
    · exact fails_atKey _ _ _
  · exact fails_atKey _ _ _

theorem fails_query (v : Value) (path : String) :
    Fails MemoryError.IsOfPath (v.query path) := by
  unfold query
  split
  · exact fails_ok _
  · split
    · exact ((Query.fails_parse path).map _).mono fun _ => .inr
    · exact fails_error (.inr rfl)

theorem fails_shift (op : Operator) (left : Value) (ms : Int) :
    Fails MemoryError.IsMisuse (left.shift op ms) := by
  unfold shift
  dsimp only
  split
  · exact fails_ok _
  · exact fails_error (.arithmetic _ _ _)

/-- A calculation fails by misuse only. -/
theorem fails_calculate (op : Operator) (left right : Value) :
    Fails MemoryError.IsMisuse (left.calculate op right) := by
  unfold calculate
  dsimp only
  split
  · split
    · exact fails_ok _
    · exact fails_ok _
    · exact fails_ok _
    · split
      · exact fails_error (.arithmetic _ _ _)
      · exact fails_ok _
  · split
    · exact fails_ok _
    · exact fails_error (.arithmetic _ _ _)

end Value

namespace Store

section

variable {shown : String} {meaning : String → Resolved Value}
  (h : ∀ inner, Fails MemoryError.IsMisuse (meaning inner))

include h

theorem fails_argumentsBy (args : List Argument) :
    Fails MemoryError.IsMisuse (argumentsBy meaning args) := by
  induction args with
  | nil => exact fails_ok _
  | cons arg rest ih =>
    cases arg with
    | literal v => exact ih.map _
    | reference inner =>
      exact (h inner).bind fun v => ih.bind fun _ => fails_ok _

theorem fails_segmentBy (v : Value) (segment : Segment) :
    Fails MemoryError.IsOfPath (segmentBy meaning shown v segment) := by
  cases segment with
  | property name => exact v.fails_property name
  | index i =>
    cases i with
    | position n => exact v.fails_atPosition shown n
    | key k => exact v.fails_atKey shown k
    | lookup word =>
      rw [segmentBy, indexBy]
      split
      · exact fails_ok _
      · exact (h word).ofPath.bind fun meaning => v.fails_atWord _ _ _
  | method name args =>
    exact (fails_argumentsBy h args).ofPath.bind fun _ => Capability.fails_invoke _ _ _ _
  | query path => exact v.fails_query path

/-- Along a path nothing else goes wrong. -/
theorem fails_segmentsBy (v : Value) (segments : List Segment) :
    Fails MemoryError.IsOfPath (segmentsBy meaning shown v segments) := by
  induction segments generalizing v with
  | nil => exact fails_ok _
  | cons segment rest ih => exact (fails_segmentBy h v segment).bind fun u => ih u

theorem fails_arithmeticBy (v : Value) (a : Arithmetic) :
    Fails MemoryError.IsMisuse (arithmeticBy meaning v a) := by
  unfold arithmeticBy
  split
  · exact v.fails_calculate _ _
  · exact v.fails_shift _ _
  · exact (h _).bind fun _ => v.fails_calculate _ _

theorem fails_absentRootBy (s : Store) (plan : Plan) :
    Fails MemoryError.IsMisuse (s.absentRootBy meaning plan) := by
  unfold absentRootBy
  dsimp only
  split
  · split
    · exact fails_ok _
    · exact (fails_arithmeticBy h _ _).bind fun _ => fails_ok _
  · exact fails_ok _
  · exact fails_ok _

end

variable {s : Store} {expr : String}

theorem fails_setting (mode : s.memory.buildMode = true) (key : String) :
    Fails MemoryError.IsMisuse (s.setting key) := by
  unfold setting
  split
  · exact fails_ok _
  · rw [if_pos mode]
    exact fails_ok _

/-- A name on the way that is not known makes the whole path a placeholder. -/
theorem fails_navigateBy {meaning : String → Resolved Value} (mode : s.memory.buildMode = true)
    (h : ∀ inner, Fails MemoryError.IsMisuse (meaning inner)) (plan : Plan)
    (base : Variable) (segments : List Segment) :
    Fails MemoryError.IsMisuse (s.navigateBy meaning plan base segments) := by
  unfold navigateBy
  split
  · exact fails_ok _
  · have path : Fails MemoryError.IsOfPath
        (segmentsBy meaning plan.expr base.value segments) := fails_segmentsBy h _ _
    split
    · rename_i e failed
      split
      · exact fails_ok _
      · rename_i intolerable
        refine fails_error ((path e failed).resolve_right fun unknown => ?_)
        exact intolerable (Bool.and_eq_true_iff.mpr ⟨mode, unknown⟩)
    · dsimp only
      split
      · exact (fails_arithmeticBy h _ _).bind fun _ => fails_ok _
      · exact fails_ok _

/-- In build mode a plan fails by misuse only, if the texts inside do. -/
theorem fails_resolvePlanBy {meaning : String → Resolved Value} (mode : s.memory.buildMode = true)
    (h : ∀ inner, Fails MemoryError.IsMisuse (meaning inner)) (plan : Plan) :
    Fails MemoryError.IsMisuse (s.resolvePlanBy meaning plan) := by
  unfold resolvePlanBy
  dsimp only
  split
  · exact fails_navigateBy mode h plan _ _
  · split
    · split
      · exact (fails_setting mode _).bind fun base => fails_navigateBy mode h plan base _
      · exact fails_error (.invalidExpression _ _)
    · split
      · split
        · exact fails_navigateBy mode h plan _ _
        · exact fails_absentRootBy h s plan
      · exact fails_absentRootBy h s plan

/-- By the length of the expression: what stands inside it is shorter. -/
theorem fails_get (mode : s.memory.buildMode = true) (expr : String) :
    Fails MemoryError.IsMisuse (s.get expr) := by
  induction hn : expr.length using Nat.strongRecOn generalizing expr with
  | _ n ih =>
    rw [get]
    refine Fails.bind (Plan.refuses_parse expr) fun plan => fails_resolvePlanBy mode ?_ plan
    intro inner
    split
    · rename_i shorter
      exact (ih inner.length (hn ▸ shorter) inner rfl).map _
    · exact fails_error (.invalidExpression _ _)

/-- The expression is a path from a variable, and a name in it is not known: there is no such
variable, or the path from its value leads to a name that it does not have. -/
inductive Loses (s : Store) (expr : String) (plan : Plan) : Prop where
  | root (parsed : Plan.parse expr = .ok plan) (free : ¬ plan.IsReserved)
    (unset : (s.lookup? plan.key).filter Variable.isSet = none) (path : plan.segments ≠ [])
  | path {x : Variable} {e : MemoryError} (parsed : Plan.parse expr = .ok plan)
    (free : ¬ plan.IsReserved) (set : (s.lookup? plan.key).filter Variable.isSet = some x)
    (fails : segmentsBy s.getValue plan.expr x.value plan.segments = .error e)
    (unknown : e.isUnknownName = true)

/-- A name that is not known gives a placeholder. -/
theorem Loses.get_eq {plan : Plan} (h : s.Loses expr plan) (mode : s.memory.buildMode = true) :
    s.get expr = .ok (.placeholder plan.expr) := by
  cases h with
  | root parsed free unset path =>
    rw [Store.get_eq parsed free, unset]
    dsimp only
    rw [absentRootBy, mode]
    split
    · contradiction
    · contradiction
    · rfl
  | @path x e parsed free set fails unknown =>
    have leads : plan.segments.isEmpty = false := by
      cases none : plan.segments with
      | nil =>
        rw [none] at fails
        cases fails
      | cons segment rest => rfl
    rw [Store.get_eq parsed free, set]
    dsimp only
    rw [navigateBy, leads, fails, mode]
    simp [unknown]

/-- In build mode an expression has a value, or there is something wrong with the expression itself.
It never fails for a name that is not known, wherever that stands; where the path of the expression
leads to one, the expression stands for itself. -/
theorem names_are_tolerated_in_build_mode (s : Store) (mode : s.memory.buildMode = true)
    (expr : String) :
    ((∃ x, s.get expr = .ok x) ∨ ∃ e, s.get expr = .error e ∧ e.IsMisuse) ∧
      ∀ plan, s.Loses expr plan → s.get expr = .ok (.placeholder plan.expr) := by
  refine ⟨?_, fun plan loses => loses.get_eq mode⟩
  cases found : s.get expr with
  | ok x => exact .inl ⟨x, rfl⟩
  | error e => exact .inr ⟨e, rfl, fails_get mode expr e found⟩

/-- A setting that is not there, as the name of a member that a list does not have, makes a
placeholder; one that is added to a number cannot be calculated with. -/
theorem names_are_tolerated_in_build_mode_nested :
    let s : Store := { memory := { buildMode := true, vars := [
      ("items", { name := "items", value := .list [.number 1.0] }),
      ("n", { name := "n", value := .number 2.0 })] } }
    s.memory.buildMode = true ∧
      s.get "items[%Settings.Gone%]" = .ok (.placeholder "items[%Settings.Gone%]") ∧
      ∃ e, s.get "n+Settings.Gone" = .error e ∧ e.IsMisuse := by
  intro s
  have path := (names_are_tolerated_in_build_mode s rfl "items[%Settings.Gone%]").2
  have sum := (names_are_tolerated_in_build_mode s rfl "n+Settings.Gone").1
  refine ⟨rfl, ?_, sum.resolve_left ?_⟩
  · let plan : Plan :=
      ⟨"items[%Settings.Gone%]", "items", [.index (.lookup "Settings.Gone")], none⟩
    have parsed : Plan.parse "items[%Settings.Gone%]" = .ok plan := by with_unfolding_all rfl
    have key : plan.key = "items" := by decide +kernel
    have set : (s.lookup? plan.key).filter Variable.isSet =
        some { name := "items", value := .list [.number 1.0] } := by
      rw [key]
      rfl
    have fails : segmentsBy s.getValue plan.expr
        (.list [.number 1.0]) plan.segments = .error (.notIndexable plan.expr "list") := by
      with_unfolding_all rfl
    exact path plan (.path parsed (by decide) set fails rfl)
  · rintro ⟨x, found⟩
    have failed : (s.get "n+Settings.Gone").isOk = false := by with_unfolding_all rfl
    rw [found] at failed
    cases failed

end Store

end GoalScript
