import GoalScript.Proofs.Steadiness

namespace GoalScript

def Engine.root (e : Engine) : Nat × Handle × Bool := (e.id, e.base, e.memory.buildMode)

/-- From `w` to `v` nothing happens to variable events and to settings, nor to what the engine is
made with. -/
structure World.Rests (w v : World) : Prop where
  pending : v.engine.memory.pending = w.engine.memory.pending
  deferred : v.engine.context.deferred = w.engine.context.deferred
  inEvent : v.engine.memory.inEvent = w.engine.memory.inEvent
  settings : v.host.shared.settings = w.host.shared.settings
  root : v.engine.root = w.engine.root

namespace World

variable {u v w : World}

theorem Rests.refl (w : World) : w.Rests w := ⟨rfl, rfl, rfl, rfl, rfl⟩

theorem Rests.trans (h : w.Rests v) (k : v.Rests u) : w.Rests u where
  pending := k.pending.trans h.pending
  deferred := k.deferred.trans h.deferred
  inEvent := k.inEvent.trans h.inEvent
  settings := k.settings.trans h.settings
  root := k.root.trans h.root

theorem rests_closeStep (step : Step) (w : World) : w.Rests (Run.closeStep step w) := by
  unfold Run.closeStep
  split <;> exact ⟨rfl, rfl, rfl, rfl, rfl⟩

theorem modules_closeStep (step : Step) (w : World) :
    (Run.closeStep step w).engine.registry.registry.modules =
      w.engine.registry.registry.modules := by
  unfold Run.closeStep
  split <;> rfl

theorem deferred_enterScope (c : Context) (comment : Option String) :
    (c.enterScope comment).deferred = c.deferred := by
  unfold Context.enterScope
  split <;> rfl

theorem rests_enterGoal (inv : Invocation) (w : World) : w.Rests (Run.enterGoal inv w) := by
  obtain ⟨registry, stamp, injected, -⟩ := Run.inject_eq inv.goal w
  have rests : w.Rests (Run.inject inv.goal w) := by
    rw [injected]
    exact ⟨rfl, rfl, rfl, rfl, rfl⟩
  exact rests.trans ⟨rfl, deferred_enterScope _ _, rfl, rfl, rfl⟩

end World

namespace Run

/-- What is demanded of parts, and where. -/
structure Discipline (app : App) where
  -- The settings with which parts may begin.
  Accepts : Settings → Prop
  Trusts : Module → Prop
  -- The steps that may be attempted.
  Allows : Site → Prop
  KeepsAt {α : Type} : Run α → World → Prop
  -- Where the part succeeds callbacks are to follow.
  WritesAt {α : Type} : Run α → World → Prop
  -- The part makes the callbacks that are to follow.
  DrainsAt {α : Type} : Run α → World → Prop

variable {α β : Type} {app : App}

namespace Discipline

structure Here (D : Discipline app) (w : World) : Prop where
  settings : D.Accepts w.host.shared.settings
  modules : ∀ entry ∈ w.engine.registry.registry.modules, D.Trusts entry.2

def Keeps (D : Discipline app) (p : Run α) : Prop := ∀ w, D.Here w → D.KeepsAt p w

def Writes (D : Discipline app) (p : Run α) : Prop := ∀ w, D.Here w → D.WritesAt p w

def Drains (D : Discipline app) (p : Run α) : Prop := ∀ w, D.Here w → D.DrainsAt p w

/-- What the parts of the engine rest on. -/
class Lawful (D : Discipline app) : Prop where
  done {α : Type} (result : Except EngineError α) : D.Keeps (.done result)
  change {α : Type} {f : World → World} {next : World → Run α} {w : World} (rests : w.Rests (f w))
    (here : D.Here (f w)) (h : D.KeepsAt (next (f w)) (f w)) : D.KeepsAt (.change f next) w
  andThen {α β : Type} {p : Run α} {next : Except EngineError α → Run β} {w : World}
    (hp : D.KeepsAt p w) (hn : ∀ result, D.Keeps (next result)) : D.KeepsAt (p.andThen next) w
  drains_change {α : Type} {f : World → World} {next : World → Run α} {w : World}
    (rests : w.Rests (f w)) (here : D.Here (f w)) (h : D.DrainsAt (next (f w)) (f w)) :
    D.DrainsAt (.change f next) w
  drains_andThen {α β : Type} {p : Run α} {next : Except EngineError α → Run β} {w : World}
    (hp : D.DrainsAt p w) (hn : ∀ result, D.Keeps (next result)) : D.DrainsAt (p.andThen next) w
  writes_andThen {α β : Type} {p : Run α} {f : α → Run β} {w : World} (hp : D.WritesAt p w)
    (hf : ∀ a, D.Drains (f a)) : D.KeepsAt (p >>= f) w
  put (name : String) (value : Value) : D.Writes (put name value)
  bind (values : Table Value) : D.Writes (bind values)
  call {m : Module} (hm : D.Trusts m) (site : Site) (limit : Nat) :
    D.Writes (callModule m site limit)
  fire : D.Drains (fire app)
  event {α : Type} {p : Run α} (h : D.Keeps p) : D.Keeps (asEvent p)
  setting (owner key : String) (value : Json) : D.Keeps (setSetting owner key value)
  goal (inv : Invocation) : D.Keeps (runGoal app inv)
  recovery {site : Site} (h : D.Allows site) (effort : Effort) :
    D.Keeps (await (.recovery app site effort) .done)
  allows {w : World} (here : D.Here w) {site : Site} (h : passesOver w site = false) :
    D.Allows site

variable {D : Discipline app} {v w : World}

theorem Here.of_rests (h : D.Here w) (rests : w.Rests v)
    (modules : v.engine.registry.registry.modules = w.engine.registry.registry.modules) :
    D.Here v := ⟨rests.settings ▸ h.settings, modules ▸ h.modules⟩

variable [D.Lawful]

theorem KeepsAt.bind {p : Run α} {f : α → Run β} (hp : D.KeepsAt p w) (hf : ∀ a, D.Keeps (f a)) :
    D.KeepsAt (p >>= f) w := by
  refine Lawful.andThen hp fun result => ?_
  cases result with
  | ok a => exact hf a
  | error e => exact Lawful.done _

theorem Keeps.bind {p : Run α} {f : α → Run β} (hp : D.Keeps p) (hf : ∀ a, D.Keeps (f a)) :
    D.Keeps (p >>= f) := fun w hw => KeepsAt.bind (hp w hw) hf

/-- What a part that writes leaves to be done is done by one that drains. -/
theorem Writes.bind {p : Run α} {f : α → Run β} (hp : D.Writes p) (hf : ∀ a, D.Drains (f a)) :
    D.Keeps (p >>= f) := fun w hw => Lawful.writes_andThen (hp w hw) hf

theorem Drains.bind {p : Run α} {f : α → Run β} (hp : D.Drains p) (hf : ∀ a, D.Keeps (f a)) :
    D.Drains (p >>= f) := by
  refine fun w hw => Lawful.drains_andThen (hp w hw) fun result => ?_
  cases result with
  | ok a => exact hf a
  | error e => exact Lawful.done _

theorem Keeps.outcome {p : Run α} (h : D.Keeps p) : D.Keeps (outcome p) :=
  fun w hw => Lawful.andThen (h w hw) fun _ => Lawful.done _

theorem Drains.outcome {p : Run α} (h : D.Drains p) : D.Drains (outcome p) :=
  fun w hw => Lawful.drains_andThen (h w hw) fun _ => Lawful.done _

theorem Keeps.afterwards {p : Run α} {restore : World → World} (hp : D.Keeps p)
    (rests : ∀ v : World, v.Rests (restore v)) (here : ∀ v, D.Here v → D.Here (restore v)) :
    D.Keeps (afterwards p restore) := by
  refine fun w hw => Lawful.andThen (hp w hw) fun result v hv => ?_
  exact Lawful.change (rests v) (here v hv) (Lawful.done result _ (here v hv))

theorem keeps_pure (a : α) : D.Keeps (pure a : Run α) := Lawful.done _

theorem keeps_throw (e : EngineError) : D.Keeps (throw e : Run α) := Lawful.done _

/-- Looking at the world leads nowhere else. -/
theorem keeps_get_bind {f : World → Run β} (h : ∀ w, D.Here w → D.KeepsAt (f w) w) :
    D.Keeps (get >>= f) := fun w hw => Lawful.change (.refl w) hw (h w hw)

theorem keepsAt_set (rests : w.Rests v) (here : D.Here v) : D.KeepsAt (set v : Run PUnit) w :=
  Lawful.change rests here (Lawful.done _ _ here)

theorem keeps_update {f : World → World} (rests : ∀ w : World, w.Rests (f w))
    (here : ∀ w, D.Here w → D.Here (f w)) : D.Keeps (update f) :=
  fun w hw => Lawful.change (rests w) (here w hw) (Lawful.done _ _ (here w hw))

/-- The change concerns neither events nor settings nor modules. -/
theorem keeps_modify {f : World → World} (rests : ∀ w : World, w.Rests (f w))
    (modules : ∀ w, (f w).engine.registry.registry.modules = w.engine.registry.registry.modules) :
    D.Keeps (update f) := keeps_update rests fun w hw => hw.of_rests (rests w) (modules w)

theorem keeps_forM {f : α → Run PUnit} (h : ∀ a, D.Keeps (f a)) (as : List α) :
    D.Keeps (as.forM f) := by
  induction as with
  | nil => exact keeps_pure _
  | cons a as ih => exact (h a).bind fun _ => ih

theorem keeps_mapM {f : α → Run β} (h : ∀ a, D.Keeps (f a)) (as : List α) :
    D.Keeps (as.mapM f) := by
  have loop (as : List α) (done : List β) : D.Keeps (List.mapM.loop f as done) := by
    induction as generalizing done with
    | nil => exact keeps_pure _
    | cons a as ih => exact (h a).bind fun b => ih (b :: done)
  exact loop as []

theorem keeps_note (entry : GoalScript.Entry) : D.Keeps (note entry) :=
  keeps_modify (fun _ => ⟨rfl, rfl, rfl, rfl, rfl⟩) fun _ => rfl

theorem keeps_wait (ms : Nat) : D.Keeps (wait ms) :=
  keeps_modify (fun _ => ⟨rfl, rfl, rfl, rfl, rfl⟩) fun _ => rfl

theorem keeps_modifyContext {f : Context → Context} (h : ∀ c, (f c).deferred = c.deferred) :
    D.Keeps (modifyContext f) :=
  keeps_modify (fun _ => ⟨rfl, h _, rfl, rfl, rfl⟩) fun _ => rfl

theorem keeps_modifyStack (f : CallStack → CallStack) : D.Keeps (modifyStack f) :=
  keeps_modify (fun _ => ⟨rfl, rfl, rfl, rfl, rfl⟩) fun _ => rfl

theorem keeps_ofMemory (r : Resolved α) : D.Keeps (ofMemory r) := by
  cases r with
  | ok a => exact keeps_pure a
  | error e => exact keeps_throw _

theorem keeps_findGoal (name : String) : D.Keeps (findGoal app name) := by
  unfold findGoal
  split
  · exact keeps_pure _
  · exact keeps_throw _

theorem keeps_prepare (call : GoalCall) (values : Table Value) (origin : Option EventOrigin) :
    D.Keeps (prepare app call values origin) := by
  refine (keeps_findGoal call.name).bind fun goal => keeps_get_bind fun w hw => ?_
  refine Keeps.bind (keeps_ofMemory _) (fun parameters => ?_) w hw
  exact Writes.bind (Lawful.bind _) fun _ => Drains.bind Lawful.fire fun _ => keeps_pure _

theorem keeps_enter (call : GoalCall) (values : Table Value) (origin : Option EventOrigin) :
    D.Keeps (enter app (runGoal app) call values origin) := by
  rw [enter_eq]
  exact (keeps_prepare call values origin).bind fun _ => Lawful.goal _

theorem keeps_runEventGoal (call : GoalCall) (origin : EventOrigin) (values : Table Value) :
    D.Keeps (runEventGoal app (runGoal app) call origin values) :=
  Keeps.bind (Lawful.event (keeps_enter call values _)) fun _ => keeps_pure _

theorem keeps_callBack (e : PendingEvent) : D.Keeps (callBack app (runGoal app) e) :=
  Keeps.bind (Lawful.event (keeps_enter _ _ _)) fun _ => keeps_pure _

theorem keeps_announce (o : Occasion) (values : Table Value) :
    D.Keeps (announce app (runGoal app) o values) := by
  refine keeps_get_bind fun w hw => ?_
  split
  · exact keeps_pure _ w hw
  · exact keeps_forM (fun b => keeps_runEventGoal _ _ _) _ w hw

theorem keeps_runErrorBindings (scope : EventScope) (e : EngineError)
    (bindings : List EventBinding) :
    D.Keeps (runErrorBindings app (runGoal app) scope e bindings) := by
  induction bindings with
  | nil => exact keeps_pure _
  | cons b rest ih =>
    refine (keeps_runEventGoal _ _ _).outcome.bind fun result => ?_
    cases result with
    | ok _ => exact ih
    | error failure => exact keeps_throw _

theorem keeps_announceError (o : Occasion) (e : EngineError) :
    D.Keeps (announceError app (runGoal app) o e) := by
  refine keeps_get_bind fun w hw => ?_
  dsimp only
  split
  · exact keeps_throw _ w hw
  · split
    · exact keeps_throw _ w hw
    · exact keeps_runErrorBindings _ _ _ w hw

/-- A module that is found is one of those at hand. -/
theorem keeps_moduleOf_bind {step : Step} {f : Option Module → Run β}
    (h : ∀ m?, (∀ m, m? = some m → D.Trusts m) → D.Keeps (f m?)) :
    D.Keeps (moduleOf step >>= f) := by
  rw [moduleOf, bind_assoc]
  refine keeps_get_bind fun w hw => ?_
  split
  · rename_i m hm
    obtain ⟨name, member⟩ := Registry.mem_of_get hm
    refine h (some m) (fun m' he => ?_) w hw
    cases he
    exact hw.modules _ member
  · exact h none (fun _ he => by cases he) w hw
  · exact keeps_throw _ w hw

theorem keeps_storeResult (step : Step) (v : Value) : D.Keeps (storeResult app step v) := by
  unfold storeResult
  split
  · exact Writes.bind (Lawful.put _ _) fun _ => Lawful.fire
  · exact keeps_pure _

theorem keeps_applyOutput (site : Site) (output : Output) :
    D.Keeps (applyOutput app (runGoal app) site output) := by
  cases output with
  | nothing => exact keeps_pure _
  | value v => exact (keeps_storeResult _ v).bind fun _ => keeps_pure _
  | callGoal call =>
    refine (keeps_enter call [] none).bind fun control => ?_
    split
    · exact (keeps_storeResult _ _).bind fun _ => keeps_pure _
    · exact keeps_pure _
    · exact keeps_pure _
  | exit levels => exact keeps_pure _
  | returned v => exact keeps_pure _
  | branch taken => exact (keeps_modifyStack _).bind fun _ => keeps_pure _

theorem keeps_fallBack (step : Step) : D.Keeps (fallBack app (runGoal app) step) := by
  unfold fallBack
  split
  · refine (keeps_enter _ [] none).bind fun control => ?_
    split <;> exact keeps_pure _
  · exact keeps_throw _

/-- However the function has ended, what it has queued is called back. -/
theorem drains_conclude (site : Site) (result : Except Halt Output) :
    D.Drains (conclude app (runGoal app) site result) := by
  rcases result with (e | _) | output
  · exact Drains.bind (Drains.outcome Lawful.fire) fun _ => keeps_throw _
  · exact Drains.bind Lawful.fire fun _ => keeps_fallBack _
  · intro w hw
    have noted : D.Here (w.record (.succeeded site.goal.name site.step.index)) :=
      hw.of_rests ⟨rfl, rfl, rfl, rfl, rfl⟩ rfl
    refine Lawful.drains_change ⟨rfl, rfl, rfl, rfl, rfl⟩ noted ?_
    exact Drains.bind Lawful.fire (fun _ => keeps_applyOutput site output) _ noted

theorem keeps_attempt (site : Site) : D.Keeps (attempt app (runGoal app) site) := by
  refine (keeps_note _).bind fun _ => keeps_moduleOf_bind fun m? hm => ?_
  cases m? with
  | none => exact keeps_pure _
  | some m =>
    dsimp only
    split
    · exact keeps_throw _
    · exact Writes.bind (Lawful.call (hm m rfl) _ _) fun result => drains_conclude _ result

theorem keeps_ask (request : Request) : D.Keeps (ask request) := by
  refine (keeps_note _).bind fun _ => keeps_get_bind fun w hw => ?_
  split
  all_goals
    refine KeepsAt.bind (keepsAt_set ?_ ?_) fun _ => keeps_pure _
    · exact ⟨rfl, rfl, rfl, rfl, rfl⟩
    · exact hw.of_rests ⟨rfl, rfl, rfl, rfl, rfl⟩ rfl

theorem keeps_applyAnswer (request : Request) (answer : Value) :
    D.Keeps (applyAnswer app request answer) := by
  cases request with
  | ask question answerVariable =>
    exact Writes.bind (Lawful.put _ _) fun _ => Drains.bind Lawful.fire fun _ => keeps_pure _
  | setting name => exact Keeps.bind (Lawful.setting _ _ _) fun _ => keeps_pure _
  | fileAccess path =>
    simp only [applyAnswer]
    split
    · exact Keeps.bind (keeps_modifyContext fun _ => rfl) fun _ => keeps_pure _
    · exact keeps_pure _

theorem keeps_intervene (e : EngineError) : D.Keeps (intervene app e) := by
  unfold intervene
  split
  · exact keeps_pure _
  · refine (keeps_ask _).bind fun reply => ?_
    cases reply with
    | answer v => exact keeps_applyAnswer _ v
    | decline => exact keeps_pure _
    | failure text => exact keeps_throw _

theorem keeps_handle (h : ErrorHandler) (e : EngineError) (mayRetry : Bool) :
    D.Keeps (handle app (runGoal app) h e mayRetry) := by
  unfold handle
  split
  · split
    · exact (keeps_wait _).bind fun _ => keeps_pure _
    · refine (keeps_enter _ _ none).bind fun _ => ?_
      split
      · exact (keeps_wait _).bind fun _ => keeps_pure _
      · exact keeps_pure _
  · split
    · exact (keeps_wait _).bind fun _ => keeps_pure _
    · exact keeps_pure _

theorem keeps_surrender (site : Site) (e : EngineError) :
    D.Keeps (surrender app (runGoal app) site e) :=
  (keeps_announceError _ e).bind fun _ => keeps_pure _

theorem keeps_judge (site : Site) (effort : Effort) (e : EngineError) :
    D.Keeps (judge app (runGoal app) site effort e) := by
  unfold judge
  dsimp only
  split
  · exact keeps_throw _
  · refine (keeps_intervene e).bind fun answered => ?_
    split
    · exact keeps_pure _
    · split
      · exact keeps_pure _
      · refine (keeps_handle _ _ _).bind fun remedy => ?_
        cases remedy <;> exact keeps_pure _

theorem keeps_turn (site : Site) (effort : Effort) :
    D.Keeps (turn app (runGoal app) site effort) := by
  refine (keeps_attempt site).outcome.bind fun result => ?_
  cases result with
  | ok control => exact keeps_pure _
  | error e => exact keeps_judge _ _ _

/-- Attempts lead to attempts at the same step only. -/
theorem keeps_recovery {site : Site} (h : D.Allows site) (effort : Effort) :
    D.Keeps (recovery app (runGoal app) site effort) := by
  refine (keeps_turn site effort).bind fun verdict => ?_
  cases verdict with
  | settled control => exact keeps_pure _
  | answered => exact Lawful.recovery h _
  | retry reported => exact Lawful.recovery h _
  | surrender reported => exact keeps_surrender _ _

theorem keeps_recordDone (site : Site) : D.Keeps (recordDone site) := by
  unfold recordDone
  split
  · refine keeps_get_bind fun w hw => ?_
    exact Keeps.bind (Lawful.setting _ _ _) (fun _ => keeps_note _) w hw
  · exact keeps_pure _

section

variable (deferred : D.Keeps (runDeferred app (runGoal app)))

include deferred

theorem keeps_performStep {site : Site} (h : D.Allows site) :
    D.Keeps (performStep app (runGoal app) site) := by
  refine (keeps_announce _ _).bind fun _ => (keeps_note _).bind fun _ => ?_
  refine Keeps.bind ?_ fun control => ?_
  · have attempts : D.Keeps (attemptAll app site) := Lawful.recovery h _
    exact attempts.afterwards (World.rests_closeStep site.step) fun v hv =>
      hv.of_rests (v.rests_closeStep site.step) (v.modules_closeStep site.step)
  · refine (keeps_recordDone site).bind fun _ => (keeps_announce _ _).bind fun _ => ?_
    exact deferred.bind fun _ => keeps_pure _

theorem keeps_runStep (site : Site) : D.Keeps (runStep app (runGoal app) site) := by
  refine keeps_get_bind fun w hw => ?_
  split
  · exact keeps_pure _ w hw
  · rename_i passes
    have allowed : D.Allows site := Lawful.allows hw (by simpa using passes)
    have entered : D.Keeps (update (enterStep site.step)) :=
      keeps_modify (fun _ => ⟨rfl, World.deferred_enterScope _ _, rfl, rfl, rfl⟩) fun _ => rfl
    refine entered.bind (fun _ => ?_) w hw
    refine (keeps_performStep deferred allowed).afterwards (fun v => ⟨rfl, rfl, rfl, rfl, rfl⟩) ?_
    exact fun v hv => hv.of_rests ⟨rfl, rfl, rfl, rfl, rfl⟩ rfl

end

theorem keeps_afterStep (goal : Goal) (result : Except EngineError Control) :
    D.Keeps (afterStep app (runGoal app) goal result) := by
  cases result with
  | ok control => exact keeps_pure control
  | error e =>
    refine (keeps_announceError _ e).outcome.bind fun r => ?_
    cases r with
    | ok _ => exact keeps_pure _
    | error e' =>
      dsimp only
      split
      · exact keeps_pure _
      · exact keeps_throw _

section

variable (deferred : D.Keeps (runDeferred app (runGoal app)))

include deferred

theorem keeps_runSteps (goal : Goal) (steps : List Step) :
    D.Keeps (runSteps app (runGoal app) goal steps) := by
  induction steps with
  | nil => exact keeps_pure _
  | cons step rest ih =>
    refine (keeps_runStep deferred _).outcome.bind fun result => ?_
    refine (keeps_afterStep goal result).bind fun control => ?_
    cases control with
    | proceed => exact ih
    | exit levels => exact keeps_pure _
    | returned value => exact keeps_pure _

/-- A goal keeps the discipline from its first event to its last. -/
theorem keeps_goalBody (goal : Goal) : D.Keeps (goalBody app (runGoal app) goal) := by
  refine (keeps_announce _ _).bind fun _ => ?_
  refine (keeps_runSteps deferred goal goal.steps).bind fun control => ?_
  exact (keeps_announce _ _).bind fun _ => keeps_pure _

/-- A goal gives back the registry that it has found. -/
theorem keeps_goalRun (inv : Invocation) : D.Keeps (goalRun app (runGoal app) inv) := by
  refine keeps_get_bind fun w hw => ?_
  split
  · exact keeps_throw _ w hw
  · refine Keeps.bind (keeps_update (World.rests_enterGoal inv) ?_) (fun _ => ?_) w hw
    · exact fun v hv => hv.of_rests (v.rests_enterGoal inv) (modules_enterGoal inv v)
    · refine (keeps_goalBody deferred inv.goal).afterwards (fun v => ⟨rfl, rfl, rfl, rfl, rfl⟩) ?_
      refine fun v hv => ⟨hv.settings, ?_⟩
      unfold leaveGoal
      dsimp only
      split
      · exact hv.modules
      · exact hw.modules

end

theorem keeps_runAll (result : Option Value) (goals : List Goal) :
    D.Keeps (runAll app result goals) := by
  induction goals generalizing result with
  | nil => exact keeps_pure _
  | cons goal rest ih => exact Keeps.bind (Lawful.goal _) fun control => ih _

theorem keeps_session (deferred : D.Keeps (runDeferred app (runGoal app))) (names : List String) :
    D.Keeps (session app names) := by
  refine (keeps_mapM (fun _ => keeps_findGoal _) _).bind fun goals => ?_
  refine (keeps_runAll _ _).bind fun _ => (keeps_announce _ _).bind fun _ => ?_
  refine (keeps_runAll _ _).bind fun _ => (keeps_announce _ _).bind fun _ => ?_
  exact deferred.bind fun _ => keeps_pure _

end Discipline

end Run

end GoalScript
