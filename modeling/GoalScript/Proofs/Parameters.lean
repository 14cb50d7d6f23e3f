import Mathlib.Data.List.Nodup
import GoalScript.Proofs.Courses
import GoalScript.Proofs.Operands
import GoalScript.Proofs.Tables

namespace GoalScript

namespace Store

/-- Nothing but the variable of this name comes of a write to it. -/
structure Takes (s : Store) (name : String) : Prop where
  identifier : Plan.IsIdentifier name.toList
  free : Text.lowercase name ∉ ["now", "nowutc", "settings"]
  unwatched : ∀ x, s.lookup? (Text.lowercase name) = some x → x.subscriptions = []

structure TakesAll (s : Store) (values : Table Value) : Prop where
  takes : ∀ entry ∈ values, s.Takes entry.1
  differ : values.Pairwise fun a b => Text.lowercase a.1 ≠ Text.lowercase b.1

def hold (s : Store) (entry : String × Value) : Store :=
  s.setInScope (Text.lowercase entry.1) { name := entry.1, value := entry.2.structured }
    (s.scopeOf entry.1)

def emptied (s : Store) : Store :=
  { s with memory := { s.memory with vars := [] }, shared := { s.shared with vars := [] } }

variable {s t : Store} {name key : String} {entry other : String × Value} {values : Table Value}
  {scope : Scope}

/-- A value that is held changes nothing but variables. -/
@[simp]
theorem emptied_hold (s : Store) (entry : String × Value) : (s.hold entry).emptied = s.emptied := by
  unfold hold
  cases s.scopeOf entry.1 <;> rfl

theorem emptied_foldl_hold (s : Store) (values : Table Value) :
    (values.foldl hold s).emptied = s.emptied := by
  induction values generalizing s with
  | nil => rfl
  | cons first rest ih => rw [List.foldl_cons, ih, emptied_hold]

theorem queue_of_unwatched {x : Variable} (h : x.subscriptions = []) (type : EventType)
    (value : Value) : s.queue x type value = s := by
  unfold queue
  split
  · rfl
  · simp [h]

theorem rootOf_of_isIdentifier (identifier : Plan.IsIdentifier name.toList) :
    rootOf name = (name, Text.lowercase name) :=
  rootOf_of_parse (Plan.parse_of_isIdentifier identifier)

theorem inScope_hold (s : Store) (entry : String × Value) (key : String) (scope : Scope) :
    (s.hold entry).inScope key scope =
      if key = Text.lowercase entry.1 ∧ scope = s.scopeOf entry.1 then
        some { name := entry.1, value := entry.2.structured }
      else s.inScope key scope :=
  inScope_setInScope s _ key _ _ scope

theorem inScope_hold_of_ne (h : key ≠ Text.lowercase entry.1) :
    (s.hold entry).inScope key scope = s.inScope key scope := by
  rw [inScope_hold, if_neg fun same => h same.1]

theorem lookup?_hold_of_ne (h : key ≠ Text.lowercase entry.1) :
    (s.hold entry).lookup? key = s.lookup? key := by
  rw [lookup?_eq, lookup?_eq, inScope_hold_of_ne h, inScope_hold_of_ne h]

/-- Where a name is written does not depend on what other names hold. -/
theorem scopeOf_hold (identifier : Plan.IsIdentifier name.toList)
    (h : Text.lowercase name ≠ Text.lowercase entry.1) :
    (s.hold entry).scopeOf name = s.scopeOf name := by
  rw [scopeOf_eq, scopeOf_eq, rootOf_of_isIdentifier identifier, inScope_hold_of_ne h,
    inScope_hold_of_ne h]

/-- A name goes on to take values while others are written. -/
theorem takes_hold (takes : s.Takes name) (h : Text.lowercase name ≠ Text.lowercase entry.1) :
    (s.hold entry).Takes name where
  identifier := takes.identifier
  free := takes.free
  unwatched x found := takes.unwatched x ((lookup?_hold_of_ne h).symm.trans found)

/-- Variables of two keys can be stored in either order. -/
theorem setInScope_comm (s : Store) {key other : String} (x y : Variable) (scope scope' : Scope)
    (h : key ≠ other) : (s.setInScope key x scope).setInScope other y scope' =
      (s.setInScope other y scope').setInScope key x scope := by
  cases scope <;> cases scope' <;> simp [setInScope, Table.insert_comm _ _ _ h]

/-- Values under different names can be written in either order. -/
theorem hold_comm (first : Plan.IsIdentifier entry.1.toList)
    (second : Plan.IsIdentifier other.1.toList)
    (h : Text.lowercase entry.1 ≠ Text.lowercase other.1) :
    (s.hold entry).hold other = (s.hold other).hold entry := by
  rw [hold, scopeOf_hold second h.symm, hold, hold, scopeOf_hold first h]
  exact s.setInScope_comm _ _ _ _ h

/-- A name that takes a value is written by holding it. -/
theorem Takes.put_eq (takes : s.Takes entry.1) : s.put entry.1 entry.2 = .ok (s.hold entry) := by
  have parsed := Plan.parse_of_isIdentifier takes.identifier
  have free : ¬ (Text.lowercase entry.1 = "now" ∨ Text.lowercase entry.1 = "nowutc" ∨
    Text.lowercase entry.1 = "settings") := by
    simpa using takes.free
  have stored : s.inScope (Text.lowercase entry.1) (s.scopeOf entry.1) =
      s.lookup? (Text.lowercase entry.1) := by
    have stored := s.inScope_scopeOf entry.1
    rwa [rootOf_of_isIdentifier takes.identifier] at stored
  have unwatched : (((s.lookup? (Text.lowercase entry.1)).map Variable.subscriptions).getD []) =
      [] := by
    cases found : s.lookup? (Text.lowercase entry.1) with
    | none => rfl
    | some x => exact takes.unwatched x found
  rw [put, writeTo_of_free parsed rfl free, writeVariable, writeVariableBy]
  dsimp only
  rw [stored, unwatched, hold]
  simp only [List.isEmpty_nil, ↓reduceIte]
  exact congrArg (fun t => Except.ok (Store.setInScope t _ _ _)) (queue_of_unwatched rfl _ _)

namespace TakesAll

theorem head_differs (h : s.TakesAll (entry :: values)) (mem : other ∈ values) :
    Text.lowercase entry.1 ≠ Text.lowercase other.1 := (List.pairwise_cons.mp h.differ).1 other mem

theorem tail (h : s.TakesAll (entry :: values)) : (s.hold entry).TakesAll values where
  takes e mem := takes_hold (h.takes e (List.mem_cons_of_mem _ mem)) (h.head_differs mem).symm
  differ := h.differ.of_cons

/-- The order of the values does not matter. -/
theorem perm {order : Table Value} (h : s.TakesAll values) (permuted : order.Perm values) :
    s.TakesAll order where
  takes e mem := h.takes e (permuted.mem_iff.mp mem)
  differ := (permuted.pairwise_iff fun differs => Ne.symm differs).mpr h.differ

/-- The order in which the values are written makes no difference. -/
theorem foldl_hold_perm {order : Table Value} (h : s.TakesAll values)
    (permuted : order.Perm values) : order.foldl hold s = values.foldl hold s := by
  have ordered := h.perm permuted
  have symmetric : Std.Symm fun a b : String × Value => Text.lowercase a.1 ≠ Text.lowercase b.1 :=
    ⟨fun _ _ => Ne.symm⟩
  refine permuted.foldl_eq' (fun a ha b hb t => ?_) s
  by_cases same : a = b
  · rw [same]
  · exact hold_comm (ordered.takes a ha).identifier (ordered.takes b hb).identifier
      (ordered.differ.forall ha hb same)

/-- What is not under one of the names, where that is written, stays. -/
theorem inScope_foldl_hold_of_ne (h : s.TakesAll values)
    (elsewhere : ∀ e ∈ values, key = Text.lowercase e.1 → scope ≠ s.scopeOf e.1) :
    (values.foldl hold s).inScope key scope = s.inScope key scope := by
  induction values generalizing s with
  | nil => rfl
  | cons first rest ih =>
    obtain ⟨here, there⟩ := List.forall_mem_cons.mp elsewhere
    rw [List.foldl_cons, ih h.tail, inScope_hold, if_neg fun same => here same.1 same.2]
    intro e mem same
    have takes := h.takes e (List.mem_cons_of_mem _ mem)
    rw [scopeOf_hold takes.identifier (h.head_differs mem).symm]
    exact there e mem same

/-- Each name then stands for its value. -/
theorem lookup?_foldl_hold (h : s.TakesAll values) (mem : entry ∈ values) :
    (values.foldl hold s).lookup? (Text.lowercase entry.1) =
      some { name := entry.1, value := entry.2.structured } := by
  induction values generalizing s with
  | nil => cases mem
  | cons first rest ih =>
    rcases List.mem_cons.mp mem with rfl | mem
    · have kept (scope : Scope) : (rest.foldl hold (s.hold entry)).inScope
          (Text.lowercase entry.1) scope = (s.hold entry).inScope (Text.lowercase entry.1) scope :=
        h.tail.inScope_foldl_hold_of_ne fun e mem same => absurd same (h.head_differs mem)
      have identifier := (h.takes entry List.mem_cons_self).identifier
      rw [List.foldl_cons, lookup?_eq, kept, kept, inScope_hold, inScope_hold, scopeOf_eq,
        rootOf_of_isIdentifier identifier]
      cases own : s.inScope (Text.lowercase entry.1) .own <;>
        cases shared : s.inScope (Text.lowercase entry.1) .shared <;> simp
    · exact ih h.tail mem

theorem getValue_foldl_hold (h : s.TakesAll values) (mem : entry ∈ values) :
    (values.foldl hold s).getValue entry.1 = .ok entry.2.structured := by
  have takes := h.takes entry mem
  refine getValue_of_segmentsBy (Plan.parse_of_isIdentifier takes.identifier) rfl ?_
    (h.lookup?_foldl_hold mem) rfl rfl
  have free := takes.free
  simp only [List.mem_cons, List.not_mem_nil, or_false] at free
  exact free

end TakesAll

end Store

namespace Run

section

variable {s : Store} {extra values order : Table Value} {parameters : Table Json}
  {name : String} {v : Value}

theorem sorted_mergeBound (sorted : extra.Sorted) (values : Table Value) :
    (mergeBound extra values).Sorted :=
  List.foldlRecOn values _ sorted fun _ sorted entry _ => sorted.insert entry.1 entry.2

theorem get?_mergeBound (keyed : values.keys.Nodup) (extra : Table Value) (name : String) :
    (mergeBound extra values).get? name = (values.get? name).or (extra.get? name) := by
  induction values generalizing extra with
  | nil => rfl
  | cons first rest ih =>
    obtain ⟨key, v⟩ := first
    obtain ⟨absent, keyed⟩ := List.nodup_cons.mp keyed
    have merged := ih keyed (extra.insert key v)
    rw [Table.get?_insert] at merged
    refine merged.trans ?_
    rw [Table.get?_cons]
    by_cases here : name = key
    · subst here
      simp [Table.get?_eq_none_iff.mpr absent]
    · simp [here]

/-- A call binds its parameters, and the values that come with it under other names. -/
theorem mem_mergeBound (keyed : values.keys.Nodup) (sorted : extra.Sorted) :
    (name, v) ∈ mergeBound extra values ↔
      (name, v) ∈ values ∨ name ∉ values.keys ∧ (name, v) ∈ extra := by
  rw [← Table.get?_eq_some_iff (sorted_mergeBound sorted values).nodup_keys,
    get?_mergeBound keyed, Option.or_eq_some_iff, Table.get?_eq_some_iff keyed,
    Table.get?_eq_none_iff, Table.get?_eq_some_iff sorted.nodup_keys]

/-- Nor does the order of the parameters. -/
theorem mergeBound_perm (keyed : values.keys.Nodup) (permuted : order.Perm values)
    (extra : Table Value) : mergeBound extra order = mergeBound extra values := by
  have keyed : order.keys.Nodup := (permuted.map Prod.fst).nodup_iff.mpr keyed
  refine permuted.foldl_eq' (fun a ha b hb t => ?_) extra
  by_cases same : a.1 = b.1
  · rw [List.inj_on_of_nodup_map keyed ha hb same]
  · exact t.insert_comm a.2 b.2 same

theorem resolveParameters_of_resolve {value : Json → Value}
    (resolve : ∀ p ∈ parameters, s.resolveJson p.2 = .ok (value p.2)) :
    resolveParameters s parameters = .ok (parameters.mapValues value) := by
  induction parameters with
  | nil => rfl
  | cons first rest ih =>
    obtain ⟨here, there⟩ := List.forall_mem_cons.mp resolve
    rw [resolveParameters, here, ih there]
    rfl

/-- The first parameter that cannot be resolved fails the call. -/
theorem resolveParameters_of_error
    (fails : ∃ p ∈ parameters, ∃ e, s.resolveJson p.2 = .error e) :
    ∃ p ∈ parameters, ∃ e, s.resolveJson p.2 = .error e ∧
      resolveParameters s parameters = .error e := by
  induction parameters with
  | nil =>
    obtain ⟨p, mem, -⟩ := fails
    cases mem
  | cons first rest ih =>
    rcases here : s.resolveJson first.2 with e | v
    · refine ⟨first, List.mem_cons_self, e, here, ?_⟩
      rw [resolveParameters, here]
      rfl
    · have later : ∃ p ∈ rest, ∃ e, s.resolveJson p.2 = .error e := by
        obtain ⟨p, mem, e, fails⟩ := fails
        rcases List.mem_cons.mp mem with rfl | mem
        · rw [here] at fails
          cases fails
        · exact ⟨p, mem, e, fails⟩
      obtain ⟨p, mem, e, fails, stops⟩ := ih later
      refine ⟨p, List.mem_cons_of_mem _ mem, e, fails, ?_⟩
      rw [resolveParameters, here, stops]
      rfl

end

/-- The parameters of a call and the values that come with it can be bound. Their names differ up to
letter case, but a parameter may have the very name of a value that comes with the call. -/
structure Bindable (s : Store) (parameters : Table Json) (extra : Table Value) : Prop where
  keyed : parameters.keys.Nodup
  sorted : extra.Sorted
  takes : ∀ name ∈ parameters.keys ++ extra.keys, s.Takes name
  differ : ∀ a ∈ parameters.keys ++ extra.keys, ∀ b ∈ parameters.keys ++ extra.keys,
    Text.lowercase a = Text.lowercase b → a = b

/-- In `t` the names stand for what is to be bound, as it was in `s`, and otherwise it is `s`. -/
structure Bound (s t : Store) (parameters : Table Json) (extra : Table Value) : Prop where
  resolved : ∀ p ∈ parameters, t.getValue p.1 = (s.resolveJson p.2).map Value.structured
  given : ∀ x ∈ extra, x.1 ∉ parameters.keys → t.getValue x.1 = .ok x.2.structured
  others : ∀ key scope, (∀ name ∈ parameters.keys ++ extra.keys,
    key = Text.lowercase name → scope ≠ s.scopeOf name) → t.inScope key scope = s.inScope key scope
  rest : t.emptied = s.emptied

section

variable {s : Store} {extra values locals : Table Value} {parameters : Table Json} {app : App}
  {call : GoalCall} {origin : Option EventOrigin} {goal : Goal} {value : Json → Value} {w : World}

namespace Bindable

theorem mem_mergeBound (h : Bindable s parameters extra) {name : String} {v : Value} :
    (name, v) ∈ mergeBound extra (parameters.mapValues value) ↔
      (∃ json, (name, json) ∈ parameters ∧ value json = v) ∨
        name ∉ parameters.keys ∧ (name, v) ∈ extra := by
  have keyed : (parameters.mapValues value).keys.Nodup := by
    rw [Table.keys_mapValues]
    exact h.keyed
  rw [Run.mem_mergeBound keyed h.sorted, Table.keys_mapValues]
  simp [Table.mapValues]

theorem mem_keys (h : Bindable s parameters extra) {entry : String × Value}
    (mem : entry ∈ mergeBound extra (parameters.mapValues value)) :
    entry.1 ∈ parameters.keys ++ extra.keys := by
  rcases h.mem_mergeBound.mp mem with ⟨json, mem, -⟩ | ⟨-, mem⟩
  · exact List.mem_append_left _ (List.mem_map.mpr ⟨_, mem, rfl⟩)
  · exact List.mem_append_right _ (List.mem_map.mpr ⟨_, mem, rfl⟩)

theorem takesAll (h : Bindable s parameters extra) (value : Json → Value) :
    s.TakesAll (mergeBound extra (parameters.mapValues value)) where
  takes entry mem := h.takes entry.1 (h.mem_keys mem)
  differ := by
    have keyed := (sorted_mergeBound h.sorted (parameters.mapValues value)).nodup_keys
    refine (List.pairwise_map.mp keyed).imp_of_mem fun {a b} ha hb differs same => ?_
    exact differs (h.differ a.1 (h.mem_keys ha) b.1 (h.mem_keys hb) same)

theorem bound (h : Bindable s parameters extra)
    (resolve : ∀ p ∈ parameters, s.resolveJson p.2 = .ok (value p.2)) :
    Bound s ((mergeBound extra (parameters.mapValues value)).foldl Store.hold s) parameters
      extra where
  resolved p mem := by
    rw [resolve p mem]
    exact (h.takesAll value).getValue_foldl_hold (h.mem_mergeBound.mpr (.inl ⟨p.2, mem, rfl⟩))
  given x mem absent :=
    (h.takesAll value).getValue_foldl_hold (h.mem_mergeBound.mpr (.inr ⟨absent, mem⟩))
  others key scope elsewhere :=
    (h.takesAll value).inScope_foldl_hold_of_ne fun entry mem =>
      elsewhere entry.1 (h.mem_keys mem)
  rest := s.emptied_foldl_hold _

end Bindable

/-- Writing to a name that takes a value cannot fail. -/
theorem run_put_of_takes {entry : String × Value} (h : w.store.Takes entry.1) :
    (put entry.1 entry.2).run w = (.ok (), w.withStore (w.store.hold entry)) := by
  rw [put, run_get_bind, h.put_eq]
  rfl

/-- A store that differs in variables only can be put in place of a world's. -/
theorem store_withStore {t : Store} (same : t.emptied = w.store.emptied) :
    (w.withStore t).store = t := by
  have now : t.now = w.host.now := congrArg Store.now same
  simp only [World.store, World.withStore, ← now]

/-- Values are bound as they come; each is written to what the writes before it have left. -/
theorem run_bind_of_takesAll (h : w.store.TakesAll values) :
    (bind values).run w = (.ok (), w.withStore (values.foldl Store.hold w.store)) := by
  induction values generalizing w with
  | nil => rfl
  | cons entry rest ih =>
    have stored : (w.withStore (w.store.hold entry)).store = w.store.hold entry :=
      store_withStore (w.store.emptied_hold entry)
    have later := ih (stored.symm ▸ h.tail)
    rw [stored] at later
    exact (run_bind_of_ok (run_put_of_takes (h.takes entry List.mem_cons_self))).trans later

theorem run_fire_of_nil (app : App) (idle : w.engine.memory.pending = []) :
    (fire app).run w = (.ok (), w) := run_bind_of_ok (perform_fire_of_nil app idle)

theorem store_enterGoal (inv : Invocation) (w : World) : (enterGoal inv w).store = w.store := by
  obtain ⟨registry, stamp, he, -⟩ := inject_eq inv.goal w
  simp only [enterGoal, he]
  rfl

/-- Once its parameters are resolved a call binds them, and its goal is run with them. -/
theorem run_enter_of_resolve (found : app.library.get? call.name = some goal)
    (idle : w.engine.memory.pending = [])
    (resolve : resolveParameters w.store call.parameters = .ok values)
    (merged : mergeBound extra values = locals) (takes : w.store.TakesAll locals) :
    (enter app (runGoal app) call extra origin).run w =
      (runGoal app { goal, origin, locals }).run
        (w.withStore (locals.foldl Store.hold w.store)) := by
  have pending : (locals.foldl Store.hold w.store).memory.pending = [] :=
    (congrArg (fun s => s.memory.pending) (w.store.emptied_foldl_hold _)).trans idle
  rw [enter, run_bind_of_ok (run_findGoal found), run_get_bind, resolve]
  subst merged
  exact (run_bind_of_ok (run_bind_of_takesAll takes)).trans
    (run_bind_of_ok (run_fire_of_nil app pending))

/-- A call binds all its parameters to what they stand for before the call, in whatever order they
are taken. Its goal starts with the names bound and everything else as it was. A parameter that
cannot be resolved fails the call and nothing is bound. -/
theorem parameters_are_bound_at_once (app : App) (call : GoalCall) (extra : Table Value)
    (origin : Option EventOrigin) (goal : Goal) (w : World)
    (found : app.library.get? call.name = some goal)
    (bindable : Bindable w.store call.parameters extra) (idle : w.engine.memory.pending = []) :
    ((∀ p ∈ call.parameters, ∃ v, w.store.resolveJson p.2 = .ok v) →
      ∃ t locals, Bound w.store t call.parameters extra ∧
        (∀ parameters, parameters.Perm call.parameters →
          (∃ values, resolveParameters w.store parameters = .ok values ∧
            mergeBound extra values = locals) ∧
          (enter app (runGoal app) { call with parameters } extra origin).run w =
            (runGoal app { goal, origin, locals }).run (w.withStore t)) ∧
        (∀ order, order.Perm locals → (bind order).run w = (.ok (), w.withStore t)) ∧
        (enterGoal { goal, origin, locals } (w.withStore t)).store = t ∧
        (w.engine.stack.length < app.config.maxCallDepth → ∀ body,
          (goalBody app (runGoal app) goal).run
            (enterGoal { goal, origin, locals } (w.withStore t)) = body →
          (enter app (runGoal app) call extra origin).run w =
            (body.1, leaveGoal goal (w.withStore t) body.2))) ∧
    ((∃ p ∈ call.parameters, ∃ e, w.store.resolveJson p.2 = .error e) →
      ∃ p ∈ call.parameters, ∃ e, w.store.resolveJson p.2 = .error e ∧
        (enter app (runGoal app) call extra origin).run w = (.error (.memory e), w)) := by
  constructor
  · intro all
    let value (json : Json) : Value := (w.store.resolveJson json).toOption.getD .null
    have resolve : ∀ p ∈ call.parameters, w.store.resolveJson p.2 = .ok (value p.2) := by
      intro p mem
      obtain ⟨v, h⟩ := all p mem
      simp [value, h, Except.toOption]
    let locals := mergeBound extra (call.parameters.mapValues value)
    let t := locals.foldl Store.hold w.store
    have takes : w.store.TakesAll locals := bindable.takesAll value
    have same : t.emptied = w.store.emptied := w.store.emptied_foldl_hold locals
    have orders (parameters : Table Json) (permuted : parameters.Perm call.parameters) :
        resolveParameters w.store parameters = .ok (parameters.mapValues value) ∧
          mergeBound extra (parameters.mapValues value) = locals := by
      refine ⟨resolveParameters_of_resolve fun p mem => resolve p (permuted.mem_iff.mp mem), ?_⟩
      apply mergeBound_perm _ (permuted.map _)
      exact (Table.keys_mapValues value call.parameters).symm ▸ bindable.keyed
    have runs (parameters : Table Json) (permuted : parameters.Perm call.parameters) :
        (enter app (runGoal app) { call with parameters } extra origin).run w =
          (runGoal app { goal, origin, locals }).run (w.withStore t) := by
      obtain ⟨resolved, merged⟩ := orders parameters permuted
      exact run_enter_of_resolve found idle resolved merged takes
    refine ⟨t, locals, bindable.bound resolve,
      fun parameters permuted => ⟨⟨_, orders parameters permuted⟩, runs parameters permuted⟩,
      fun order permuted => ?_, (store_enterGoal _ _).trans (store_withStore same),
      fun room body ends => ?_⟩
    · rw [run_bind_of_takesAll (takes.perm permuted), takes.foldl_hold_perm permuted]
    · have entered : (w.withStore t).engine.stack.length < app.config.maxCallDepth := room
      exact (runs call.parameters (.refl _)).trans (run_runGoal_of_room entered ends)
  · intro fails
    obtain ⟨p, mem, e, unresolved, stops⟩ := resolveParameters_of_error fails
    refine ⟨p, mem, e, unresolved, ?_⟩
    rw [enter, run_bind_of_ok (run_findGoal found), run_get_bind, stops]
    rfl

end

namespace Swapping

def sub : Goal := .new "Sub" []

def app : App := ⟨{ goals := [(Text.lowercase "Sub", sub)] }, {}⟩

/-- Sub is called with the values of two variables changed over. -/
def call : GoalCall where
  name := "Sub"
  parameters := [("a", .text "%b%"), ("b", .text "%a%")]

def extra : Table Value := [("a", .text "given"), ("note", .text "[true]")]

def start : World :=
  let a : Variable := { name := "a", value := .text "first" }
  let b : Variable := { name := "b", value := .text "second" }
  let w : World := ⟨.start 0 ⟨{}, 0⟩ false, {}⟩
  w.withStore { memory := { vars := [("a", a)] }, shared := { vars := [("b", b)] } }

theorem bindable : Bindable start.store call.parameters extra where
  keyed := by decide
  sorted := by
    unfold Table.Sorted
    decide
  takes := by
    have plain : ∀ name ∈ call.parameters.keys ++ extra.keys, Plan.IsIdentifier name.toList ∧
        Text.lowercase name ∉ ["now", "nowutc", "settings"] ∧
        (start.store.lookup? (Text.lowercase name)).all (·.subscriptions.isEmpty) = true := by
      decide +kernel
    intro name mem
    obtain ⟨identifier, free, unwatched⟩ := plain name mem
    refine ⟨identifier, free, fun x found => ?_⟩
    rw [found] at unwatched
    exact List.isEmpty_iff.mp unwatched
  differ := by decide +kernel

end Swapping

open Swapping in
/-- The variables are changed over, a list that is written as a text is a list, and a parameter
comes before a value of the same name. -/
theorem parameters_are_bound_at_once_swapped :
    app.library.get? call.name = some sub ∧ Bindable start.store call.parameters extra ∧
      start.engine.memory.pending = [] ∧
      ∃ t locals, t.getValue "a" = .ok (.text "second") ∧ t.getValue "b" = .ok (.text "first") ∧
        t.getValue "note" = .ok (.list [.bool true]) ∧
        (enter app (runGoal app) call extra none).run start =
          (runGoal app { goal := sub, locals }).run (start.withStore t) := by
  have found : app.library.get? call.name = some sub := by
    simp [Library.get?, app, call, Table.get?]
  have resolve : ∀ p ∈ call.parameters, ∃ v, start.store.resolveJson p.2 = .ok v :=
    List.forall_mem_cons.mpr ⟨⟨.text "second", by with_unfolding_all rfl⟩,
      List.forall_mem_singleton.mpr ⟨.text "first", by with_unfolding_all rfl⟩⟩
  obtain ⟨t, locals, bound, orders, -⟩ :=
    (parameters_are_bound_at_once app call extra none sub start found bindable rfl).1 resolve
  refine ⟨found, bindable, rfl, t, locals, ?_, ?_, ?_, (orders call.parameters (.refl _)).2⟩
  · exact (bound.resolved ("a", .text "%b%") (by simp [call])).trans (by with_unfolding_all rfl)
  · exact (bound.resolved ("b", .text "%a%") (by simp [call])).trans (by with_unfolding_all rfl)
  · exact (bound.given ("note", .text "[true]") (by simp [extra]) (by decide)).trans
      (by with_unfolding_all rfl)

end Run

end GoalScript
