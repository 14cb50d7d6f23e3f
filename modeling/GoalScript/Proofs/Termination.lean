import Mathlib.Data.Prod.Lex
import GoalScript.Proofs.Machine
import GoalScript.Proofs.Unfolding

namespace GoalScript

def bounded (app : App) (ready : Task → World → Prop) : Contract where
  always v := v.engine.stack.length ≤ app.config.maxCallDepth
  owes t v := t.app = app ∧ v.engine.stack.length ≤ app.config.maxCallDepth ∧ ready t v
  grants t v e := (t.start v).Follows t.top e.2

namespace Task

/-- What a task may begin at its own depth: goals only, then the callbacks to make, then turns. -/
def level (t : Task) (w : World) : ℕ :=
  match t with
  | goal .. => 0
  | fire _ => if w.engine.memory.pending.isEmpty then 0 else 1
  | recovery _ site effort => Run.turnsLeft site effort w + 1

/-- The room for further goals counts first. -/
def rank (t : Task) (w : World) : ℕ ×ₗ ℕ :=
  toLex (t.app.config.maxCallDepth - w.engine.stack.length, t.level w)

variable {t t' : Task} {v w : World}

/-- A goal further inside has less room. -/
theorem rank_lt_of_deeper (ha : t'.app = t.app)
    (hw : w.engine.stack.length < t.app.config.maxCallDepth)
    (hv : v.engine.stack.length = w.engine.stack.length + 1) : t'.rank v < t.rank w := by
  refine Prod.Lex.toLex_lt_toLex.mpr (.inl ?_)
  simp only [ha, hv]
  omega

/-- At one depth the level decides. -/
theorem rank_lt_of_level (ha : t'.app = t.app)
    (hv : v.engine.stack.length = w.engine.stack.length) (hl : t'.level v < t.level w) :
    t'.rank v < t.rank w := by
  refine Prod.Lex.toLex_lt_toLex.mpr (.inr ⟨?_, hl⟩)
  simp only [ha, hv]

theorem level_fire_le (app : App) (w : World) : (fire app).level w ≤ 1 := by
  simp only [level]
  split <;> decide

end Task

namespace Run

variable {α : Type} {app : App} {ready ready' : Task → World → Prop} {depth : Nat}
  {registry : Handle} {p : Run α} {post : Ending α → Prop} {w : World}

/-- What is kept inside a goal keeps the bound. -/
theorem Meets.bounded (h : p.Meets (inside app depth registry ready) post w)
    (hd : depth ≤ app.config.maxCallDepth)
    (hr : ∀ t v, t.app = app → v.engine.stack.length = depth → v.engine.registry = registry →
      ready t v → ready' t v) :
    p.Meets (bounded app ready') post w :=
  h.weaken (fun _ hv => Nat.le_trans hv hd)
    (fun t v ⟨ha, hv, hreg, ht⟩ => ⟨ha, hv ▸ hd, hr t v ha hv hreg ht⟩) fun _ _ _ _ he => he

/-- Everything that a goal's run begins is further inside. -/
theorem meets_goalRun_bounded {inv : Invocation}
    (hw : w.engine.stack.length ≤ app.config.maxCallDepth)
    (hr : ∀ t v, t.app = app → w.engine.stack.length < app.config.maxCallDepth →
      v.engine.stack.length = w.engine.stack.length + 1 →
      v.engine.registry = (enterGoal inv w).engine.registry → ready' t v) :
    (goalRun app (runGoal app) inv).Meets (bounded app ready') (fun e => w.Follows Eq e.2) w := by
  rcases Nat.lt_or_ge w.engine.stack.length app.config.maxCallDepth with hlt | hge
  · have h := meets_goalRun_anyTime inv hlt
    rw [depth_enterGoal] at h
    exact h.bounded hlt fun t v ht hv hreg _ => hr t v ht hlt hv hreg
  · refine meets_get_bind.mpr ⟨hw, ?_⟩
    simp only [hge, ↓reduceIte]
    exact World.Follows.refl w

/-- Tasks keep to the bound in all they do. -/
theorem sound_bounded (app : App) : (bounded app anyTime).Sound := by
  rintro t w ⟨rfl, hw, -⟩
  cases t with
  | goal app inv => exact meets_goalRun_bounded hw fun _ _ _ _ _ _ => trivial
  | fire app => exact Meets.bounded clears_callBackAll_anyTime hw fun _ _ _ _ _ h => h
  | recovery app site effort =>
    exact Meets.bounded keeps_recovery_anyTime hw fun _ _ _ _ _ h => h

/-- With discreet modules whatever a task begins has a lower rank. -/
theorem meets_program_ranked (t : Task) (hw : w.engine.stack.length ≤ t.app.config.maxCallDepth)
    (hd : w.engine.registry.Discreet) :
    t.program.Meets (bounded t.app fun t' v => v.engine.registry.Discreet ∧ t'.rank v < t.rank w)
      (fun e => (t.start w).Follows t.top e.2) w := by
  cases t with
  | goal app inv =>
    refine meets_goalRun_bounded hw fun t v ha hlt hv hreg => ⟨?_, ?_⟩
    · intro entry he
      rw [hreg, modules_enterGoal] at he
      exact hd entry he
    · exact Task.rank_lt_of_deeper ha hlt hv
  | fire app =>
    by_cases hp : w.engine.memory.pending.isEmpty
    · -- Nothing is queued, and nothing at all is begun.
      have h := meets_callBackAll_of_nil app (List.isEmpty_iff.mp hp)
      refine Meets.bounded (h.mono fun e he => ?_) hw fun _ _ _ _ _ h => h.elim
      have idle : w.Idle := fun _ => List.isEmpty_iff.mp hp
      exact he ▸ idle.take_follows
    · refine Meets.bounded clears_callBackAll hw fun t v ha hv hreg hr => ⟨hreg ▸ hd, ?_⟩
      refine Task.rank_lt_of_level ha hv ?_
      rw [Task.level, if_neg hp]
      -- Callbacks run goals, and where a callback fires nothing is queued yet.
      cases t with
      | goal app' inv => exact Nat.zero_lt_one
      | fire app' =>
        have idle : v.Idle := hr
        simp [Task.level, idle (hreg ▸ hd)]
      | recovery app' site effort => exact hr.elim
  | recovery app site effort =>
    have h : Keeps app (endsWithin (turnsLeft site effort w - 1)) Frame.SameRun
        (recovery app (runGoal app) site effort) w := keeps_recovery_endsWithin (Nat.le_refl _)
    refine Meets.bounded h hw fun t v ha hv hreg hr => ⟨hreg ▸ hd, ?_⟩
    refine Task.rank_lt_of_level ha hv ?_
    have turn : 0 < turnsLeft site effort w := Nat.succ_pos _
    cases t with
    | goal app' inv => exact Nat.succ_pos _
    | fire app' => exact Nat.lt_of_le_of_lt (Task.level_fire_le app' v) (Nat.succ_lt_succ turn)
    | recovery app' site' effort' =>
      have hr : turnsLeft site' effort' v ≤ turnsLeft site effort w - 1 := hr
      simp only [Task.level]
      omega

/-- By the rank every task comes to what it is carried out to. -/
theorem ends_program (t : Task) (hw : w.engine.stack.length ≤ t.app.config.maxCallDepth)
    (hd : w.engine.registry.Discreet) : Ends t.program w (perform t w) := by
  induction hr : t.rank w using WellFoundedLT.induction generalizing t w with
  | ind r ih =>
    rw [perform_eq_run t hd]
    refine (meets_program_ranked t hw hd).ends fun t' v ⟨ha, hv, hdv, hlt⟩ => ⟨?_, ?_⟩
    · exact follows_perform t' v
    · exact ih _ (hr ▸ hlt) t' (ha ▸ hv) hdv rfl

/-- What a host may start. -/
inductive Entry (app : App) : {α : Type} → Run α → Prop where
  | session (names : List String) : Entry app (session app names)
  | goal (inv : Invocation) : Entry app (runGoal app inv)
  | call (call : GoalCall) (values : Table Value) :
    Entry app (callGoal app (runGoal app) call values)
  | eventGoal (call : GoalCall) (origin : EventOrigin) (values : Table Value) :
    Entry app (runEventGoal app (runGoal app) call origin values)

theorem Entry.keeps (h : Entry app p) : Keeps app anyTime Eq p w := by
  have hg : ∀ inv v, anyTime (.goal app inv) v := fun _ _ => trivial
  have hf : ∀ v, anyTime (.fire app) v := fun _ => trivial
  cases h with
  | session names => exact keeps_session hg hf names
  | goal inv => exact keeps_runGoal trivial
  | call call values => exact keeps_callGoal hg hf
  | eventGoal call origin values => exact keeps_runEventGoal hg hf

/-- From an empty stack, and if modules leave the in-event flags alone, a run comes to what it is
carried out to. -/
theorem Entry.ends (h : Entry app p) (hs : w.engine.stack = []) (hd : w.engine.registry.Discreet) :
    Ends p w (p.run w) := by
  have hw : w.engine.stack.length ≤ app.config.maxCallDepth := hs ▸ Nat.zero_le _
  have hk : Keeps app anyTime Eq p w := h.keeps
  have hb : p.Meets (bounded app fun _ v => v.engine.registry.Discreet) _ w :=
    Meets.bounded hk hw fun _ _ _ _ hreg _ => hreg ▸ hd
  refine hb.ends fun t v ⟨ha, hv, hdv⟩ => ⟨follows_perform t v, ?_⟩
  exact ends_program t (ha ▸ hv) hdv

/-- From an empty stack no run ever has more goals inside one another than it may. It comes to an
end, after finitely many module calls, if the module functions themselves leave the in-event flags
and the log level alone. -/
theorem runs_are_bounded (h : Entry app p) (hs : w.engine.stack = []) :
    (∀ s, Reaches (p, w) s → s.2.engine.stack.length ≤ app.config.maxCallDepth) ∧
    (w.engine.registry.Discreet →
      Finite (p, w) ∧ Reaches (p, w) (done (p.run w).1, (p.run w).2)) := by
  have hw : w.engine.stack.length ≤ app.config.maxCallDepth := hs ▸ Nat.zero_le _
  have hk : Keeps app anyTime Eq p w := h.keeps
  refine ⟨fun s hr => ?_, fun hd => ?_⟩
  · exact (hr.meets (sound_bounded app) (Meets.bounded hk hw fun _ _ _ _ _ h => h) hw).2
  · have ends : Ends p w (p.run w) := h.ends hs hd
    exact ⟨ends.finite, ends.reaches⟩

/-- A goal that calls itself, is called for its own start and calls itself back. -/
theorem runs_are_bounded_loop :
    let subscribe : Step := .new "variable" {
      function := "subscribe"
      parameters := [⟨"name", .text "x"⟩, ⟨"event", .text "change"⟩, ⟨"goal", .text "Loop"⟩] }
    let write : Step := .new "variable" {
      function := "append", parameters := [⟨"name", .text "x"⟩, ⟨"value", .text "!"⟩] }
    let call : Step := .new "goal" {
      function := "call", parameters := [⟨"name", .text "Loop"⟩] }
    let library := Library.ofFile {
      goals := [{ name := "Loop", steps := [subscribe, write, call] }]
      events := [⟨.goal, .before, { name := "Loop" }, none, none, none⟩] }
    let app : App := ⟨library, { maxCallDepth := 3 }⟩
    let w : World := ⟨.start 0 ⟨.withBuiltins, 0⟩ false, {}⟩
    let p := session app ["Loop"]
    (∀ s, Reaches (p, w) s → s.2.engine.stack.length ≤ 3) ∧ Finite (p, w) ∧
      Reaches (p, w) (done (p.run w).1, (p.run w).2) := by
  intro subscribe write call library app w p
  have entry : Entry app p := .session ["Loop"]
  have h := runs_are_bounded (w := w) entry rfl
  exact ⟨h.1, h.2 (Handle.discreet_withBuiltins 0)⟩

namespace Lowering

/-- Its first parameter can be written, the second one is read-only. -/
def halfBound : GoalCall := { name := "G", parameters := [("item", .null), ("now", .null)] }

/-- Lowers the memory's in-event flag and asks for a goal call that is bound half-way. -/
def lowering : Module where
  name := "probe"
  functions := ["lower"]
  call _ := do
    Call.setStore ((← Call.getStore).setInEvent false)
    return .callGoal halfBound

def step : Step :=
  { Step.new "probe" { function := "lower" } with errorHandlers := [{ ignoreError := true }] }

/-- One goal, whose only step ignores that its call fails. -/
def oneGoal : App where
  library := { goals := [("g", .new "G" [step])] }
  config := { maxCallDepth := 1 }

def nested : Nested := runGoal oneGoal

def site : Site := ⟨.new "G" [step], step⟩

def firstChange : Subscription :=
  { eventType := .onChange, goalName := "G", subscriber := "first" }

def secondChange : Subscription := { firstChange with subscriber := "second" }

def changeDetail : Table Value :=
  [("type", .text "on_change"), ("value", .null), ("variable", .text "item")]

def start : World where
  engine := {
    memory.vars := [("event", { name := "event", value := .object changeDetail }),
      ("item", { name := "item", value := .null, subscriptions := [firstChange, secondChange] })]
    registry := ⟨{ modules := [("probe", lowering)] }, 0⟩
    base := ⟨{ modules := [("probe", lowering)] }, 0⟩ }
  host := {}

/-- What differs between the worlds of a round. -/
def world (inContext inMemory : Bool) (pending : List PendingEvent) (stack : CallStack)
    (journal : List GoalScript.Entry) : World where
  engine := { start.engine with
    memory := { start.engine.memory with inEvent := inMemory, pending }
    context.inEvent := inContext
    stack }
  host := { journal }

def both : List PendingEvent := [⟨"item", .null, firstChange⟩, ⟨"item", .null, secondChange⟩]

def origin : EventOrigin := { scope := .variable, eventType := .onChange }

/-- What the journal has of one callback. -/
def lap : List GoalScript.Entry := [.goalEnded "G", .succeeded "G" 0, .attempted "G" 0,
  .stepStarted "G" 0, .goalStarted "G" (some origin)]

def readOnly : MemoryError := .invalidExpression "now" "'now' is read-only"

variable {inContext inMemory : Bool} {pending : List PendingEvent} {stack : CallStack}
  {journal : List GoalScript.Entry}

-- What follows is a run on one input, put together from the rules of `Ends`. Only where names and
-- texts are compared does it have to be worked out, hence `with_unfolding_all`.
theorem put_item (stack : CallStack) (journal : List GoalScript.Entry) :
    (world inContext false [] stack journal).store.put "item" .null =
      .ok (world inContext false both stack journal).store := by
  with_unfolding_all rfl

theorem put_now : (world inContext inMemory pending stack journal).store.put "now" .null =
    .error readOnly := by
  with_unfolding_all rfl

theorem put_event :
    (world inContext true pending stack journal).store.put "event" (.object changeDetail) =
      .ok (world inContext true pending stack journal).store := by
  with_unfolding_all rfl

theorem ends_fire : Ends (fire oneGoal) (world inContext inMemory [] stack journal)
    (.ok (), world inContext inMemory [] stack journal) :=
  .await (.change (.change (.done _ _))) (.done _ _)

/-- The call fails before it calls back for what its first parameter has queued. -/
theorem ends_halfBound : Ends (callGoal oneGoal nested halfBound [])
    (world true false [] stack journal)
    (.error (.memory readOnly), world true false both stack journal) := by
  have bound : Ends (bind [("item", .null), ("now", .null)])
      (world true false [] stack journal) _ :=
    (ends_put (put_item stack journal)).bind_of_ok (ends_put_of_error put_now).bind_of_error
  exact .change (bound.andThen (.done _ _))

theorem ends_attempt : Ends (attempt oneGoal nested site) (world true true [] stack journal)
    (.error (.memory readOnly),
      world true false both stack (.succeeded "G" 0 :: .attempted "G" 0 :: journal)) := by
  have concluded : Ends (conclude oneGoal nested site (.ok (.callGoal halfBound)))
      (world true false [] stack (.attempted "G" 0 :: journal)) (.error (.memory readOnly),
        world true false both stack (.succeeded "G" 0 :: .attempted "G" 0 :: journal)) :=
    .change (ends_fire.andThen (ends_halfBound.andThen (.done _ _)))
  with_unfolding_all exact .change (.change (.change (.change concluded)))

theorem ends_recovery : Ends (recovery oneGoal nested site {}) (world true true [] stack journal)
    (.ok .proceed,
      world true false both stack (.succeeded "G" 0 :: .attempted "G" 0 :: journal)) := by
  have turned : Ends (turn oneGoal nested site {}) (world true true [] stack journal)
      (.ok (.settled .proceed),
        world true false both stack (.succeeded "G" 0 :: .attempted "G" 0 :: journal)) := by
    refine ends_attempt.outcome.andThen ?_
    with_unfolding_all exact .done _ _
  exact turned.andThen (.done _ _)

theorem ends_runStep : Ends (runStep oneGoal nested site) (world true true [] stack journal)
    (.ok .proceed,
      world true false both (stack.enterStep 0).leaveStep
        (.succeeded "G" 0 :: .attempted "G" 0 :: .stepStarted "G" 0 :: journal)) := by
  have tried : Ends (attemptAll oneGoal site)
      (world true true [] (stack.enterStep 0) (.stepStarted "G" 0 :: journal)) _ :=
    .await ends_recovery (.done _ _)
  refine .change (.change (.change (.change ?_)))
  exact tried.andThen (.change (.change (.change (.change (.done _ _)))))

theorem ends_goalRun (locals : Table Value) :
    Ends (goalRun oneGoal nested ⟨site.goal, some origin, locals⟩) (world true true [] [] journal)
      (.ok .proceed, world true false both [] (lap ++ journal)) := by
  let frame : Frame := { goal := site.goal, origin := some origin, locals }
  have steps : Ends (runSteps oneGoal nested site.goal site.goal.steps)
      (world true true [] [frame] (.goalStarted "G" (some origin) :: journal)) _ :=
    ends_runStep.outcome.andThen (.done _ _)
  have body : Ends (goalBody oneGoal nested site.goal)
      (world true true [] [frame] (.goalStarted "G" (some origin) :: journal)) _ :=
    .change (steps.andThen (.change (.done _ _)))
  exact .change (.change (body.andThen (.change (.done _ _))))

theorem ends_bind (pending : List PendingEvent) (journal : List GoalScript.Entry) :
    Ends (bind [("event", .object changeDetail)]) (world true true pending [] journal)
      (.ok (), world true true pending [] journal) :=
  (ends_put put_event).bind_of_ok (.done _ _)

/-- The first callback leaves both on the queue again. -/
theorem ends_callBack (inContext inMemory : Bool) (journal : List GoalScript.Entry) :
    Ends (callBack oneGoal nested ⟨"item", .null, firstChange⟩)
      (world inContext inMemory [] [] journal)
      (.ok (), world inContext inMemory both [] (lap ++ journal)) := by
  let body := enter oneGoal nested { name := "G" } [("event", .object changeDetail)] (some origin)
  have run : Ends (nested ⟨site.goal, some origin, [("event", .object changeDetail)]⟩)
      (world true true [] [] journal) _ :=
    .await (ends_goalRun _) (.done _ _)
  have entered : Ends body (world true true [] [] journal) _ :=
    .change ((ends_bind [] journal).andThen (ends_fire.andThen run))
  have event : Ends (asEvent body) (world inContext inMemory [] [] journal) _ :=
    .change (.change (entered.andThen (.change (.done _ _))))
  exact event.andThen (.done _ _)

/-- About to call back for both. -/
def CallsBack {α : Type} (s : Point α) : Prop :=
  ∃ next inContext inMemory journal,
    s = (await (.fire oneGoal) next, world inContext inMemory both [] journal)

theorem reaches_enter {w v : World} {extra : Table Value} (origin : Option EventOrigin)
    (h : Ends (bind extra) w (.ok (), v)) : ∃ next,
      Reaches (enter oneGoal nested { name := "G" } extra origin, w)
        (await (.fire oneGoal) next, v) :=
  ⟨_, .head (.change _ _ _) (h.reaches_andThen _)⟩

/-- The second callback begins with calling back for both, before its goal does. -/
theorem reaches_callBack (inContext inMemory : Bool) (journal : List GoalScript.Entry) :
    ∃ next, Reaches
      (callBack oneGoal nested ⟨"item", .null, secondChange⟩,
        world inContext inMemory both [] journal)
      (await (.fire oneGoal) next, world true true both [] journal) := by
  obtain ⟨next, enters⟩ := reaches_enter (some origin) (ends_bind both journal)
  exact ⟨_, .head (.change _ _ _) (.head (.change _ _ _) ((enters.andThen _).andThen _))⟩

theorem reaches_callBackAll (inContext inMemory : Bool) (journal : List GoalScript.Entry) :
    ∃ next, Reaches
      (callBackAll oneGoal nested, world inContext inMemory both [] journal)
      (await (.fire oneGoal) next, world true true both [] (lap ++ journal)) := by
  have first := ends_callBack inContext inMemory journal
  obtain ⟨rest, second⟩ := reaches_callBack inContext inMemory (lap ++ journal)
  exact ⟨_, .head (.change _ _ _) (.head (.change _ _ _)
    (.trans ((first.reaches_andThen _).andThen _) ((second.andThen _).andThen _)))⟩

theorem callsBack_round {α : Type} {s : Point α} (h : CallsBack s) :
    ∃ t, Relation.TransGen Next s t ∧ CallsBack t := by
  obtain ⟨next, inContext, inMemory, journal, rfl⟩ := h
  obtain ⟨rest, called⟩ := reaches_callBackAll inContext inMemory journal
  exact ⟨_, .head' (.await _ next _) (called.andThen next), _, _, _, _, rfl⟩

end Lowering

/-- Without the proviso there are endless runs, although every module call returns and nobody is
asked: callbacks are called back for at the depth at which the first ones have begun. -/
theorem runs_with_lowered_flags_never_end :
    let p := callGoal Lowering.oneGoal (runGoal Lowering.oneGoal) { name := "G" } [("item", .null)]
    Entry Lowering.oneGoal p ∧ Lowering.start.engine.stack = [] ∧ ¬ Finite (p, Lowering.start) ∧
      ∀ result v, ¬ Reaches (p, Lowering.start) (done result, v) := by
  intro p
  have bound : Ends (bind [("item", .null)]) Lowering.start
      (.ok (), Lowering.world false false Lowering.both [] []) :=
    (ends_put (Lowering.put_item [] [])).bind_of_ok (.done _ _)
  obtain ⟨next, entered⟩ := Lowering.reaches_enter none bound
  have endless : ¬ Finite (p, Lowering.start) := fun finite =>
    not_finite_of_progress (fun _ => Lowering.callsBack_round) ⟨next, _, _, _, rfl⟩
      (finite.of_reaches entered)
  exact ⟨.call _ _, rfl, endless, fun _ _ returns => endless (finite_of_returns returns)⟩

end Run

end GoalScript
