import GoalScript.Proofs.Steadiness

namespace GoalScript.Run

variable {α : Type} {app : App} {w : World}

section

variable {call : GoalCall} {values : Table Value} {origin : Option EventOrigin}

/-- A call for nothing, or for an event of a variable, is careful. -/
theorem careful_enter (ho : ∀ o, origin = some o → o.scope = .variable) :
    Careful app (enter app (runGoal app) call values origin) := by
  intro w hw
  rw [enter_eq]
  refine Guarded.bind (guarded_prepare hw) (fun _ _ h => h.1) ?_
  rintro inv v ⟨hv, hi⟩
  refine .await rfl (fun _ o he => ?_) fun e he => .done (hv.trans he)
  exact ho o ((hi inv rfl).symm.trans he)

theorem careful_callGoal : Careful app (callGoal app (runGoal app) call values) :=
  careful_enter nofun

end

/-- Event goals for anything but variables are begun with the flags down. -/
theorem carefulAt_runEventGoal {call : GoalCall} {origin : EventOrigin} {values : Table Value}
    (hw : w.Coherent) (ho : w.engine.memory.inEvent = true → origin.scope = .variable) :
    CarefulAt app (runEventGoal app (runGoal app) call origin values) w := by
  cases hi : w.engine.memory.inEvent with
  | false =>
    have h : Guarded app (fun e => w.Steady e.2)
        ((runEventGoal app (runGoal app) call origin values).andThen done) w :=
      .event hi fun _ he => .done he
    rwa [andThen_done] at h
  | true =>
    have hv : w.Steady (w.setInEvent true true) := World.steady_setInEvent hw hi
    have body : CarefulAt app (enter app (runGoal app) call values (some origin))
        (w.setInEvent true true) :=
      careful_enter (fun o he => by cases he; exact ho hi) _ (hv.coherent hw)
    have inside := body.afterwards fun v hs => hs.setInEvent hw hi
    have event : CarefulAt app (asEvent (enter app (runGoal app) call values (some origin))) w :=
      guarded_get_bind (.change hv (inside.mono fun _ he => hv.trans he))
    exact event.bind hw fun _ v _ hv => careful_pure v hv

theorem careful_callBack (e : PendingEvent) : Careful app (callBack app (runGoal app) e) :=
  fun _ hw => carefulAt_runEventGoal hw fun _ => rfl

theorem careful_takePending : Careful app takePending := by
  refine careful_get_bind fun w hw => ?_
  refine CarefulAt.bind (carefulAt_set ?_) hw fun _ v _ hv => careful_pure v hv
  exact ⟨rfl, rfl, fun _ => .inr rfl, rfl⟩

theorem careful_callBackAll : Careful app (callBackAll app (runGoal app)) := by
  refine careful_takePending.bind fun events => ?_
  refine (careful_forM (fun e => ?_) events).bind fun _ => careful_pure
  split
  · exact careful_callBack e
  · exact careful_modifyContext fun _ => rfl

theorem careful_runDeferred : Careful app (runDeferred app (runGoal app)) := by
  refine careful_get_bind fun w hw => ?_
  split
  · exact careful_pure w hw
  · have cleared : Careful app (modifyContext fun c => { c with deferred := [] }) :=
      careful_modifyContext fun _ => rfl
    have called (e : PendingEvent) :
        Careful app (do let _ ← outcome (callBack app (runGoal app) e)) :=
      (careful_callBack e).outcome.bind fun _ => careful_pure
    exact (cleared.bind fun _ => (careful_wait _).bind fun _ => careful_forM called _) w hw

theorem careful_announce {o : Occasion} {values : Table Value} :
    Careful app (announce app (runGoal app) o values) := by
  refine careful_get_bind fun w hw => ?_
  split
  · exact careful_pure w hw
  · rename_i hi
    refine carefulAt_forM _ hw fun b v hv hc => carefulAt_runEventGoal hc fun hv' => ?_
    have hw' : w.engine.context.inEvent = true := hw.flags.trans (hv.memory.symm.trans hv')
    exact absurd hw' hi

theorem carefulAt_runErrorBindings {scope : EventScope} {e : EngineError}
    (bindings : List EventBinding) (hw : w.Coherent) (hi : w.engine.memory.inEvent = false) :
    CarefulAt app (runErrorBindings app (runGoal app) scope e bindings) w := by
  induction bindings generalizing w with
  | nil => exact careful_pure w hw
  | cons b rest ih =>
    have bound : CarefulAt app
        (runEventGoal app (runGoal app) b.goalToCall ⟨scope, .onError⟩ (errorParameters e)) w :=
      carefulAt_runEventGoal hw fun h => absurd (h.symm.trans hi) nofun
    refine bound.outcome.bind hw fun result v hv hc => ?_
    cases result with
    | ok _ => exact ih hc (hv.memory.trans hi)
    | error failure => exact careful_throw v hc

theorem careful_announceError {o : Occasion} {e : EngineError} :
    Careful app (announceError app (runGoal app) o e) := by
  refine careful_get_bind fun w hw => ?_
  dsimp only
  split
  · exact careful_throw w hw
  · rename_i hi
    split
    · exact careful_throw w hw
    · have hc : w.engine.context.inEvent = false := by
        cases h : w.engine.context.inEvent with
        | false => rfl
        | true => exact absurd (by rw [h]; rfl) hi
      exact carefulAt_runErrorBindings _ hw (hw.flags.symm.trans hc)

theorem carefulAt_callModule {m : Module} {site : Site} {limit : Nat} (hw : w.Coherent)
    (hm : ∃ key, (key, m) ∈ w.engine.registry.registry.modules) :
    CarefulAt app (callModule m site limit) w := by
  obtain ⟨key, hm⟩ := hm
  refine guarded_get_bind ?_
  refine CarefulAt.bind (carefulAt_set ?_) hw fun _ v _ hv => careful_pure v hv
  have quiet := hw.reticent _ hm site.step.instruction.function site
  exact {
    context := (quiet _).1
    memory := (quiet _).2.inEvent
    pending := fun hi => .inl ((quiet _).2.pending hi)
    modules := rfl }

theorem careful_moduleOf_bind {step : Step} {f : Option Module → Run α}
    (h : ∀ (w : World) m?, w.Coherent →
      (∀ m, m? = some m → ∃ key, (key, m) ∈ w.engine.registry.registry.modules) →
      CarefulAt app (f m?) w) : Careful app (moduleOf step >>= f) := by
  intro w hw
  unfold moduleOf
  rw [bind_assoc]
  refine guarded_get_bind ?_
  split
  · rename_i m hm
    exact h w (some m) hw fun _ he => by cases he; exact Registry.mem_of_get hm
  · exact h w none hw fun _ he => by cases he
  · exact careful_throw w hw

theorem careful_storeResult {step : Step} {v : Value} : Careful app (storeResult app step v) := by
  unfold storeResult
  split
  · exact (careful_put _ _).bind fun _ => careful_fire
  · exact careful_pure

theorem careful_applyOutput {site : Site} (output : Output) :
    Careful app (applyOutput app (runGoal app) site output) := by
  cases output with
  | nothing => exact careful_pure
  | value v => exact careful_storeResult.bind fun _ => careful_pure
  | callGoal call =>
    refine careful_callGoal.bind fun control => ?_
    split
    · exact careful_storeResult.bind fun _ => careful_pure
    · exact careful_pure
    · exact careful_pure
  | exit levels => exact careful_pure
  | returned v => exact careful_pure
  | branch taken => exact (careful_modifyStack _).bind fun _ => careful_pure

theorem careful_fallBack {step : Step} : Careful app (fallBack app (runGoal app) step) := by
  unfold fallBack
  split
  · refine careful_callGoal.bind fun control => ?_
    split <;> exact careful_pure
  · exact careful_throw

theorem careful_conclude {site : Site} (result : Except Halt Output) :
    Careful app (conclude app (runGoal app) site result) := by
  cases result with
  | ok output =>
    exact (careful_note _).bind fun _ => careful_fire.bind fun _ => careful_applyOutput output
  | error halt =>
    cases halt with
    | failed e => exact careful_fire.outcome.bind fun _ => careful_throw
    | timedOut => exact careful_fire.bind fun _ => careful_fallBack

theorem careful_attempt {site : Site} : Careful app (attempt app (runGoal app) site) := by
  refine (careful_note _).bind fun _ => careful_moduleOf_bind fun v m? hv hm => ?_
  cases m? with
  | none => exact careful_pure v hv
  | some m =>
    dsimp only
    split
    · exact careful_throw v hv
    · exact (carefulAt_callModule hv (hm m rfl)).bind hv fun result u _ => careful_conclude result u

theorem careful_ask (request : Request) : Careful app (ask request) := by
  refine (careful_note _).bind fun _ => careful_get_bind fun w hw => ?_
  split
  all_goals
    refine CarefulAt.bind (carefulAt_set ?_) hw fun _ v _ hv => careful_pure v hv
    exact .of_same rfl rfl rfl rfl

theorem careful_applyAnswer {request : Request} {answer : Value} :
    Careful app (applyAnswer app request answer) := by
  cases request with
  | ask question answerVariable =>
    exact (careful_put _ _).bind fun _ => careful_fire.bind fun _ => careful_pure
  | setting key => exact (careful_setSetting _ _ _).bind fun _ => careful_pure
  | fileAccess path =>
    simp only [applyAnswer]
    split
    · exact Careful.bind (careful_modifyContext fun _ => rfl) fun _ => careful_pure
    · exact careful_pure

theorem careful_intervene {e : EngineError} : Careful app (intervene app e) := by
  unfold intervene
  split
  · exact careful_pure
  · refine (careful_ask _).bind fun reply => ?_
    cases reply with
    | answer v => exact careful_applyAnswer
    | decline => exact careful_pure
    | failure text => exact careful_throw

theorem careful_handle {h : ErrorHandler} {e : EngineError} {mayRetry : Bool} :
    Careful app (handle app (runGoal app) h e mayRetry) := by
  have again : Careful app (wait h.retryDelay >>= fun _ => pure Remedy.tryAgain) :=
    (careful_wait _).bind fun _ => careful_pure
  unfold handle
  split
  · split
    · exact again
    · refine careful_callGoal.bind fun _ => ?_
      split
      · exact again
      · exact careful_pure
  · split
    · exact again
    · exact careful_pure

theorem careful_surrender {site : Site} {e : EngineError} :
    Careful app (surrender app (runGoal app) site e) :=
  careful_announceError.bind fun _ => careful_pure

theorem careful_judge {site : Site} {effort : Effort} {e : EngineError} :
    Careful app (judge app (runGoal app) site effort e) := by
  unfold judge
  dsimp only
  split
  · exact careful_throw
  · refine careful_intervene.bind fun answered => ?_
    split
    · exact careful_pure
    · split
      · exact careful_pure
      · refine careful_handle.bind fun remedy => ?_
        cases remedy <;> exact careful_pure

theorem careful_turn {site : Site} {effort : Effort} :
    Careful app (turn app (runGoal app) site effort) := by
  refine careful_attempt.outcome.bind fun result => ?_
  cases result with
  | ok control => exact careful_pure
  | error e => exact careful_judge

/-- A recovery is careful, turn after turn. -/
theorem careful_recovery {site : Site} {effort : Effort} :
    Careful app (recovery app (runGoal app) site effort) := by
  refine careful_turn.bind fun verdict => ?_
  cases verdict with
  | settled control => exact careful_pure
  | answered => exact careful_await rfl trivial
  | retry e => exact careful_await rfl trivial
  | surrender e => exact careful_surrender

theorem careful_recordDone {site : Site} : Careful app (recordDone site) := by
  unfold recordDone
  split
  · refine careful_get_bind fun w hw => ?_
    exact ((careful_setSetting _ _ _).bind fun _ => careful_note _) w hw
  · exact careful_pure

theorem steady_closeStep (step : Step) (w : World) : w.Steady (closeStep step w) := by
  unfold closeStep
  split
  · exact .of_same rfl rfl rfl rfl
  · exact .refl w

theorem careful_performStep {site : Site} :
    Careful app (performStep app (runGoal app) site) := by
  refine careful_announce.bind fun _ => (careful_note _).bind fun _ => ?_
  have attempts : Careful app (attemptAll app site) := careful_await rfl trivial
  refine Careful.bind (fun w hw => (attempts w hw).afterwards fun v _ => ?_) fun control => ?_
  · exact steady_closeStep site.step v
  · refine careful_recordDone.bind fun _ => careful_announce.bind fun _ => ?_
    exact careful_runDeferred.bind fun _ => careful_pure

theorem steady_enterStep (step : Step) (w : World) : w.Steady (enterStep step w) :=
  .of_same (Context.enterScope_inEvent _ _) rfl rfl rfl

theorem careful_runStep {site : Site} : Careful app (runStep app (runGoal app) site) := by
  refine careful_get_bind fun w hw => ?_
  split
  · exact careful_pure w hw
  · have entered : Careful app (update (enterStep site.step)) :=
      careful_update fun v _ => steady_enterStep site.step v
    refine (entered w hw).bind hw fun _ v _ hv => ?_
    exact (careful_performStep v hv).afterwards fun u _ => .of_same rfl rfl rfl rfl

theorem careful_afterStep {goal : Goal} (result : Except EngineError Control) :
    Careful app (afterStep app (runGoal app) goal result) := by
  cases result with
  | ok control => exact careful_pure
  | error e =>
    refine careful_announceError.outcome.bind fun r => ?_
    cases r with
    | ok _ => exact careful_pure
    | error e' =>
      dsimp only
      split
      · exact careful_pure
      · exact careful_throw

theorem careful_runSteps {goal : Goal} (steps : List Step) :
    Careful app (runSteps app (runGoal app) goal steps) := by
  induction steps with
  | nil => exact careful_pure
  | cons step rest ih =>
    refine careful_runStep.outcome.bind fun result => ?_
    refine (careful_afterStep result).bind fun control => ?_
    cases control with
    | proceed => exact ih
    | exit levels => exact careful_pure
    | returned v => exact careful_pure

theorem careful_goalBody {goal : Goal} : Careful app (goalBody app (runGoal app) goal) :=
  careful_announce.bind fun _ => (careful_runSteps goal.steps).bind fun _ =>
    careful_announce.bind fun _ => careful_pure

theorem steady_enterGoal (inv : Invocation) (w : World) : w.Steady (enterGoal inv w) := by
  have hm := modules_enterGoal inv w
  obtain ⟨registry, host, he, -⟩ := enterGoal_eq inv w
  rw [he] at hm ⊢
  exact .of_same (Context.enterScope_inEvent _ _) rfl rfl hm

/-- A goal's end may put back the registry that the goal has found, which has the same modules. -/
theorem steady_leaveGoal {goal : Goal} {v : World} (h : w.Steady v) :
    v.Steady (leaveGoal goal w v) := by
  refine .of_same rfl rfl rfl ?_
  simp only [leaveGoal, World.setLogLevel, World.record]
  split
  · rfl
  · exact h.modules.symm

/-- From its frame to its end a goal is careful. -/
theorem careful_goalRun {inv : Invocation} : Careful app (goalRun app (runGoal app) inv) := by
  refine careful_get_bind fun w hw => ?_
  split
  · exact careful_throw w hw
  · have entered : Careful app (update (enterGoal inv)) :=
      careful_update fun v _ => steady_enterGoal inv v
    refine (entered w hw).bind hw fun _ v hv hc => ?_
    exact (careful_goalBody v hc).afterwards fun u hu => steady_leaveGoal (hv.trans hu)

/-- What a task does is steady. -/
theorem careful_program (t : Task) : Careful t.app t.program := by
  cases t with
  | goal app inv => exact careful_goalRun
  | fire app => exact careful_callBackAll
  | recovery app site effort => exact careful_recovery

theorem careful_runAll (result : Option Value) (goals : List Goal) :
    Careful app (runAll app result goals) := by
  induction goals generalizing result with
  | nil => exact careful_pure
  | cons goal rest ih =>
    have begun : Careful app (runGoal app { goal }) := careful_await rfl nofun
    exact begun.bind fun control => ih (resultOf control)

/-- A session is careful, whichever goals it is asked for. -/
theorem careful_session (names : List String) : Careful app (session app names) := by
  refine (careful_mapM careful_findGoal _).bind fun goals => ?_
  refine (careful_runAll _ _).bind fun _ => careful_announce.bind fun _ => ?_
  refine (careful_runAll _ _).bind fun result => careful_announce.bind fun _ => ?_
  exact careful_runDeferred.bind fun _ => careful_pure

end GoalScript.Run
