import GoalScript.Proofs.Prompts
import GoalScript.Proofs.Steadiness
import GoalScript.Proofs.Termination

namespace GoalScript.Run

variable {α β : Type} {app : App} {old : List GoalScript.Entry} {start : List Bool}

theorem aside_wait (ms : Nat) : StaysAside old start (wait ms) :=
  aside_update fun _ _ hw => hw.append [.waited (lasting ms)] rfl rfl rfl

theorem aside_put (name : String) (value : Value) : StaysAside old start (put name value) := by
  refine aside_get_bind fun w flags hw => ?_
  cases w.store.put name value with
  | error e => exact hw
  | ok s => exact meets_set_of_same hw rfl rfl

theorem aside_bind (values : Table Value) : StaysAside old start (bind values) := by
  have written (entry : String × Value) : StaysAside old start (put entry.1 entry.2) :=
    aside_put _ _
  exact aside_forM written values

/-- What a goal attempts and presents stays inside it. -/
theorem aside_runGoal (inv : Invocation) : StaysAside old start (runGoal app inv) :=
  fun _ flags hw => ⟨⟨flags, hw⟩, fun _ he => he flags hw⟩

theorem aside_fire : StaysAside old start (fire app) := by
  have begun : StaysAside old start (await (.fire app) done) :=
    fun _ flags hw => ⟨⟨flags, hw⟩, fun _ he => he flags hw⟩
  exact begun.bind fun _ => aside_pure _

theorem attends_recovery (site : Site) (effort : Effort) :
    Attends old start (await (.recovery app site effort) done) :=
  fun _ flag flags hw => ⟨⟨flag, flags, hw⟩, fun _ he => he flag flags hw⟩

theorem aside_findGoal (name : String) : StaysAside old start (findGoal app name) := by
  unfold findGoal
  split
  · exact aside_pure _
  · exact aside_throw _

theorem aside_enter (call : GoalCall) (values : Table Value) (origin : Option EventOrigin) :
    StaysAside old start (enter app (runGoal app) call values origin) := by
  refine (aside_findGoal call.name).bind fun goal => aside_get_bind fun w flags hw => ?_
  refine StaysAside.bind (aside_ofMemory _) (fun parameters => ?_) w flags hw
  exact (aside_bind _).bind fun _ => aside_fire.bind fun _ => aside_runGoal _

theorem StaysAside.asEvent {p : Run α} (h : StaysAside old start p) :
    StaysAside old start (asEvent p) := by
  refine aside_get_bind fun w flags hw => meets_bind.mpr ?_
  have raised : (w.setInEvent true true).Attends old start flags := hw.of_same rfl rfl
  refine meets_set.mpr ⟨⟨flags, raised⟩, meets_afterwards.mpr ?_⟩
  refine (h _ flags raised).mono fun e he => ?_
  have restored := he.of_same (v := e.2.setInEvent w.engine.context.inEvent
    w.engine.memory.inEvent) rfl rfl
  exact ⟨⟨flags, restored⟩, restored⟩

theorem aside_runEventGoal (call : GoalCall) (origin : EventOrigin) (values : Table Value) :
    StaysAside old start (runEventGoal app (runGoal app) call origin values) :=
  (aside_enter call values _).asEvent.bind fun _ => aside_pure _

theorem aside_callBack (e : PendingEvent) :
    StaysAside old start (callBack app (runGoal app) e) :=
  (aside_enter _ _ _).asEvent.bind fun _ => aside_pure _

theorem aside_takePending : StaysAside old start takePending :=
  aside_get_bind fun _ _ hw =>
    Meets.bind_aside (meets_set_of_same hw rfl rfl) fun _ => aside_pure _

theorem aside_callBackAll : StaysAside old start (callBackAll app (runGoal app)) := by
  refine aside_takePending.bind fun events => ?_
  refine (aside_forM (fun e => ?_) events).bind fun _ => aside_pure _
  split
  · exact aside_callBack e
  · exact aside_modify (fun _ => rfl) fun _ => rfl

theorem aside_runDeferred : StaysAside old start (runDeferred app (runGoal app)) := by
  refine aside_get_bind fun w flags hw => ?_
  split
  · exact hw
  · have cleared : StaysAside old start (modifyContext fun c => { c with deferred := [] }) :=
      aside_modify (fun _ => rfl) fun _ => rfl
    refine cleared.bind (fun _ => (aside_wait _).bind fun _ => ?_) w flags hw
    exact aside_forM (fun e => (aside_callBack e).outcome.bind fun _ => aside_pure _) _

theorem aside_announce (o : Occasion) (values : Table Value) :
    StaysAside old start (announce app (runGoal app) o values) := by
  refine aside_get_bind fun w flags hw => ?_
  split
  · exact hw
  · exact aside_forM (fun b => aside_runEventGoal _ _ _) _ w flags hw

theorem aside_runErrorBindings (scope : EventScope) (e : EngineError)
    (bindings : List EventBinding) :
    StaysAside old start (runErrorBindings app (runGoal app) scope e bindings) := by
  induction bindings with
  | nil => exact aside_pure _
  | cons b rest ih =>
    refine (aside_runEventGoal _ _ _).outcome.bind fun result => ?_
    cases result with
    | ok _ => exact ih
    | error failure => exact aside_throw _

theorem aside_announceError (o : Occasion) (e : EngineError) :
    StaysAside old start (announceError app (runGoal app) o e) := by
  refine aside_get_bind fun w flags hw => ?_
  dsimp only
  split
  · exact hw
  · split
    · exact hw
    · exact aside_runErrorBindings _ _ _ w flags hw

theorem aside_callModule {m : Module} (hm : m.Candid) (site : Site) (limit : Nat) :
    StaysAside old start (callModule m site limit) := by
  refine aside_get_bind fun w flags hw => ?_
  obtain ⟨remarks, journal, only⟩ := hm site.step.instruction.function site {
    store := w.store
    context := w.engine.context
    elapsed := w.host.elapsed
    deadline := some (w.host.elapsed + lasting limit)
    journal := w.host.journal }
  exact Meets.bind_aside
    (meets_set_of_append hw remarks journal rfl (Entry.aside_of_remarks only)) fun _ => aside_pure _

theorem aside_storeResult (step : Step) (v : Value) :
    StaysAside old start (storeResult app step v) := by
  unfold storeResult
  split
  · exact (aside_put _ _).bind fun _ => aside_fire
  · exact aside_pure _

theorem aside_applyOutput (site : Site) (output : Output) :
    StaysAside old start (applyOutput app (runGoal app) site output) := by
  cases output with
  | nothing => exact aside_pure _
  | value v => exact (aside_storeResult _ v).bind fun _ => aside_pure _
  | callGoal call =>
    refine (aside_enter call [] none).bind fun control => ?_
    split
    · exact (aside_storeResult _ _).bind fun _ => aside_pure _
    · exact aside_pure _
    · exact aside_pure _
  | exit levels => exact aside_pure _
  | returned v => exact aside_pure _
  | branch taken =>
    have opened : StaysAside old start
        (modifyStack (·.setOpen (guarded site.goal site.step) taken)) :=
      aside_modify (fun _ => rfl) fun _ => rfl
    exact opened.bind fun _ => aside_pure _

theorem aside_fallBack (step : Step) : StaysAside old start (fallBack app (runGoal app) step) := by
  unfold fallBack
  split
  · refine (aside_enter _ [] none).bind fun control => ?_
    split <;> exact aside_pure _
  · exact aside_throw _

theorem aside_conclude (site : Site) (result : Except Halt Output) :
    StaysAside old start (conclude app (runGoal app) site result) := by
  rcases result with (e | _) | output
  · exact aside_fire.outcome.bind fun _ => aside_throw _
  · exact aside_fire.bind fun _ => aside_fallBack _
  · refine (aside_note fun _ => rfl).bind fun _ => ?_
    exact aside_fire.bind fun _ => aside_applyOutput _ _

def tryModule (app : App) (nested : Nested) (site : Site) : Run Control := do
  match ← moduleOf site.step with
  | none => return .proceed
  | some m =>
    let function := site.step.instruction.function
    if !m.hasFunction function then
      throw (.functionNotFound site.step.moduleType function
        (Suggestion.nearest? function m.functions))
    conclude app nested site (← callModule m site (limitOf app site.step))

theorem attempt_eq (app : App) (nested : Nested) (site : Site) :
    attempt app nested site =
      note (.attempted site.goal.name site.step.index) >>= fun _ => tryModule app nested site := rfl

theorem aside_tryModule (site : Site) :
    StaysAside old start (tryModule app (runGoal app) site) := by
  rw [tryModule, moduleOf, bind_assoc]
  refine aside_get_bind fun w flags hw => ?_
  split
  · rename_i m hm
    obtain ⟨name, member⟩ := Registry.mem_of_get hm
    have called : StaysAside old start (do
        conclude app (runGoal app) site (← callModule m site (limitOf app site.step))) :=
      (aside_callModule (hw.candid _ member) site _).bind fun _ => aside_conclude site _
    change (ite _ _ _ : Run Control).Meets _ _ _
    split
    · exact hw
    · exact called w flags hw
  · exact hw
  · exact hw

/-- An attempt comes first, and the request it may be waiting for has not been presented. -/
theorem attempt_meets {site : Site} {w : World} {flag : Bool} {flags : List Bool}
    (hw : w.Attends old start (flag :: flags)) :
    (attempt app (runGoal app) site).Meets (attending old start)
      (fun e => e.2.Attends old start (true :: flags)) w := by
  have hv : (w.record (.attempted site.goal.name site.step.index)).Attends old start
      (true :: flags) := hw.record rfl
  rw [attempt_eq]
  exact meets_bind.mpr (meets_update.mpr ⟨⟨_, hv⟩, aside_tryModule site _ _ hv⟩)

def takeReply : Run Reply := do
  let w ← get
  match w.host.replies with
  | [] =>
    set { w with host := { w.host with refusals := fun i => w.host.refusals (i + 1) } }
    return match w.host.refusals 0 with
      | none => .decline
      | some text => .failure text
  | reply :: rest =>
    set { w with host := { w.host with replies := rest } }
    return reply

theorem ask_eq (request : Request) :
    ask request = note (.prompted request) >>= fun _ => takeReply := rfl

def hear (app : App) (e : EngineError) (request : Request) : Run Bool := do
  match ← takeReply with
  | .answer v => applyAnswer app request v
  | .decline => return false
  | .failure text => throw (.aggregate e (.step (.ofCauses [text])))

theorem intervene_eq {e : EngineError} {request : Request} (h : e.request? = some request) :
    intervene app e = note (.prompted request) >>= fun _ => hear app e request := by
  simp only [intervene, h, ask_eq, bind_assoc]
  rfl

theorem intervene_of_none {e : EngineError} (h : e.request? = none) :
    intervene app e = pure false := by
  simp only [intervene, h]

theorem aside_takeReply : StaysAside old start takeReply := by
  refine aside_get_bind fun w flags hw => ?_
  split <;> exact Meets.bind_aside (meets_set_of_same hw rfl rfl) fun _ => aside_pure _

theorem aside_setSetting (owner key : String) (value : Json) :
    StaysAside old start (setSetting owner key value) := aside_modify (fun _ => rfl) fun _ => rfl

theorem aside_applyAnswer (request : Request) (answer : Value) :
    StaysAside old start (applyAnswer app request answer) := by
  cases request with
  | ask question answerVariable =>
    exact (aside_put _ _).bind fun _ => aside_fire.bind fun _ => aside_pure _
  | setting name => exact (aside_setSetting _ _ _).bind fun _ => aside_pure _
  | fileAccess path =>
    have granted : StaysAside old start (modifyContext (·.grant path)) :=
      aside_modify (fun _ => rfl) fun _ => rfl
    simp only [applyAnswer]
    split
    · exact granted.bind fun _ => aside_pure _
    · exact aside_pure _

theorem aside_hear (e : EngineError) (request : Request) :
    StaysAside old start (hear app e request) := by
  refine aside_takeReply.bind fun reply => ?_
  cases reply with
  | answer v => exact aside_applyAnswer _ v
  | decline => exact aside_pure _
  | failure text => exact aside_throw _

theorem aside_handle (h : ErrorHandler) (e : EngineError) (mayRetry : Bool) :
    StaysAside old start (handle app (runGoal app) h e mayRetry) := by
  unfold handle
  split
  · split
    · exact (aside_wait _).bind fun _ => aside_pure _
    · refine (aside_enter _ _ none).bind fun _ => ?_
      split
      · exact (aside_wait _).bind fun _ => aside_pure _
      · exact aside_pure _
  · split
    · exact (aside_wait _).bind fun _ => aside_pure _
    · exact aside_pure _

def settle (app : App) (nested : Nested) (site : Site) (effort : Effort) (e : EngineError)
    (answered : Bool) : Run Verdict := do
  if answered then return .answered
  let reported := effort.first.getD e
  match site.step.handlerFor? e with
  | none => return .surrender reported
  | some h =>
    match ← handle app nested h e (effort.retries < h.retryCount) with
    | .tryAgain => return .retry reported
    | .carryOn => return .settled .proceed
    | .giveUp => return .surrender reported

theorem judge_of_isFinal {site : Site} {effort : Effort} {e : EngineError} (nested : Nested)
    (h : e.kind.isFinal = true) : judge app nested site effort e = throw e := by
  simp only [judge, h, ↓reduceIte]
  rfl

/-- A failure that may be answered is presented before anything else is done about it. -/
theorem judge_eq {site : Site} {effort : Effort} {e : EngineError} (nested : Nested)
    (h : e.kind.isFinal = false) :
    judge app nested site effort e = intervene app e >>= settle app nested site effort e := by
  simp only [judge, h, Bool.false_eq_true, ↓reduceIte]
  rfl

theorem aside_settle (site : Site) (effort : Effort) (e : EngineError) (answered : Bool) :
    StaysAside old start (settle app (runGoal app) site effort e answered) := by
  unfold settle
  dsimp only
  split
  · exact aside_pure _
  · split
    · exact aside_pure _
    · refine (aside_handle _ _ _).bind fun remedy => ?_
      cases remedy <;> exact aside_pure _

/-- Errors that wait for a request are open to being asked about. -/
theorem isFinal_of_request {e : EngineError} {request : Request} (h : e.request? = some request) :
    e.kind.isFinal = false := by
  cases e with
  | interactive _ => rfl
  | memory m => cases m <;> rfl
  | _ => cases h

/-- What follows the presentation of the request that a failure waits for. -/
theorem judge_of_request {site : Site} {effort : Effort} {e : EngineError} {request : Request}
    (nested : Nested) (h : e.request? = some request) :
    judge app nested site effort e = note (.prompted request) >>= fun _ =>
      hear app e request >>= settle app nested site effort e := by
  rw [judge_eq nested (isFinal_of_request h), intervene_eq h, bind_assoc]

/-- Where there is nothing to ask for nothing is presented. -/
theorem aside_judge_of_none {site : Site} {effort : Effort} {e : EngineError}
    (h : e.request? = none) :
    StaysAside old start (judge app (runGoal app) site effort e) := by
  rcases hf : e.kind.isFinal with _ | _
  · rw [judge_eq _ hf, intervene_of_none h]
    exact (aside_pure false).bind fun _ => aside_settle _ _ _ _
  · rw [judge_of_isFinal _ hf]
    exact aside_throw e

/-- A turn attempts once and then presents once at most. -/
theorem attends_turn (site : Site) (effort : Effort) :
    Attends old start (turn app (runGoal app) site effort) := by
  intro w flag flags hw
  refine meets_bind.mpr (meets_outcome.mpr ((attempt_meets hw).mono ?_))
  rintro ⟨result, v⟩ hv
  cases result with
  | ok control => exact ⟨_, hv⟩
  | error e =>
    dsimp only
    rcases hr : e.request? with _ | request
    · exact (aside_judge_of_none hr).attends v true flags hv
    · have asked : (v.record (.prompted request)).Attends old start (false :: flags) :=
        hv.record rfl
      rw [judge_of_request _ hr]
      refine meets_bind.mpr (meets_update.mpr ⟨⟨_, asked⟩, ?_⟩)
      have heard : StaysAside old start
          (hear app e request >>= settle app (runGoal app) site effort e) :=
        (aside_hear e request).bind fun answered => aside_settle _ _ _ answered
      exact heard.attends _ false flags asked

theorem attends_recoveryTurns (site : Site) (effort : Effort) :
    Attends old start (recovery app (runGoal app) site effort) := by
  refine (attends_turn site effort).bind fun verdict => ?_
  cases verdict with
  | settled control => exact (aside_pure _).attends
  | answered => exact attends_recovery site _
  | retry reported => exact attends_recovery site _
  | surrender reported =>
    exact ((aside_announceError _ _).bind fun _ => aside_pure _).attends

theorem aside_recordDone (site : Site) : StaysAside old start (recordDone site) := by
  unfold recordDone
  split
  · refine aside_get_bind fun w flags hw => ?_
    refine StaysAside.bind (aside_setSetting _ _ _) (fun _ => ?_) w flags hw
    exact aside_note fun _ => rfl
  · exact aside_pure _

theorem attends_closeStep {w : World} {flags : List Bool} (step : Step)
    (h : w.Attends old start flags) : (closeStep step w).Attends old start flags := by
  unfold closeStep
  split
  · exact h.of_same rfl rfl
  · exact h

theorem Attends.afterwards {p : Run α} {restore : World → World} (hp : Attends old start p)
    (h : ∀ w flags, w.Attends old start flags → (restore w).Attends old start flags) :
    Attends old start (afterwards p restore) := by
  intro w flag flags hw
  refine meets_afterwards.mpr ((hp w flag flags hw).mono ?_)
  rintro ⟨result, v⟩ ⟨flag', hv⟩
  exact ⟨⟨_, h v _ hv⟩, flag', h v _ hv⟩

theorem attends_performStep (site : Site) :
    Attends old start (performStep app (runGoal app) site) := by
  refine (aside_announce _ _).attends.bind fun _ => ?_
  refine (aside_note fun _ => rfl).attends.bind fun _ => ?_
  have attempts : Attends old start (attemptAll app site) := attends_recovery site {}
  refine (attempts.afterwards fun _ _ => attends_closeStep site.step).bind fun control => ?_
  refine StaysAside.attends ((aside_recordDone site).bind fun _ => ?_)
  exact (aside_announce _ _).bind fun _ => aside_runDeferred.bind fun _ => aside_pure _

theorem attends_runStep (site : Site) : Attends old start (runStep app (runGoal app) site) := by
  intro w flag flags hw
  refine meets_get_bind.mpr ⟨⟨_, hw⟩, ?_⟩
  split
  · exact ⟨flag, hw⟩
  · have entered : StaysAside old start (update (enterStep site.step)) :=
      aside_modify (fun _ => rfl) fun _ => rfl
    refine Attends.bind entered.attends (fun _ => ?_) w flag flags hw
    exact (attends_performStep site).afterwards fun _ _ hv => hv.of_same rfl rfl

theorem aside_afterStep (goal : Goal) (result : Except EngineError Control) :
    StaysAside old start (afterStep app (runGoal app) goal result) := by
  cases result with
  | ok control => exact aside_pure control
  | error e =>
    refine (aside_announceError _ e).outcome.bind fun r => ?_
    cases r with
    | ok _ => exact aside_pure _
    | error e' =>
      dsimp only
      split
      · exact aside_pure _
      · exact aside_throw _

theorem attends_runSteps (goal : Goal) (steps : List Step) :
    Attends old start (runSteps app (runGoal app) goal steps) := by
  induction steps with
  | nil => exact (aside_pure _).attends
  | cons step rest ih =>
    refine (attends_runStep _).outcome.bind fun result => ?_
    refine (aside_afterStep goal result).attends.bind fun control => ?_
    cases control with
    | proceed => exact ih
    | exit levels => exact (aside_pure _).attends
    | returned value => exact (aside_pure _).attends

theorem attends_goalBody (goal : Goal) :
    Attends old start (goalBody app (runGoal app) goal) := by
  refine (aside_announce _ _).attends.bind fun _ => ?_
  refine (attends_runSteps goal goal.steps).bind fun control => StaysAside.attends ?_
  exact (aside_announce _ _).bind fun _ => aside_pure _

/-- What is attempted and presented in a goal is over with the goal. -/
theorem aside_goalRun (inv : Invocation) :
    StaysAside old start (goalRun app (runGoal app) inv) := by
  refine aside_get_bind fun w flags hw => ?_
  split
  · exact hw
  · obtain ⟨registry, stamp, injected, modules⟩ := inject_eq inv.goal w
    have begun : (enterGoal inv w).Attends old start (false :: flags) := by
      have unchanged : (inject inv.goal w).Attends old start flags := by
        rw [injected]
        exact hw.of_same rfl modules
      exact unchanged.append [.goalStarted inv.goal.name inv.origin] rfl rfl rfl
    refine meets_bind.mpr (meets_update.mpr ⟨⟨_, begun⟩, meets_afterwards.mpr ?_⟩)
    refine (attends_goalBody inv.goal _ _ _ begun).mono ?_
    rintro ⟨result, v⟩ ⟨flag, hv⟩
    have closed : (leaveGoal inv.goal w v).Attends old start flags := by
      obtain ⟨candid, new, journal, attended⟩ := hv
      refine ⟨?_, .goalEnded inv.goal.name :: new, congrArg _ journal, ?_⟩
      · simp only [leaveGoal]
        split
        · exact candid
        · exact hw.candid
      · rw [Entry.attended, attended]
        rfl
    exact ⟨⟨_, closed⟩, closed⟩

/-- One flag tells of every other. -/
theorem grants_of_aside {t : Task} {w : World} {flags : List Bool}
    (hw : w.Attends old start flags) {e : Ending Control} (he : e.2.Attends old start flags) :
    (attending old start).grants t w e := by
  cases t with
  | goal app inv => exact fun _ h => hw.unique h ▸ he
  | fire app => exact fun _ h => hw.unique h ▸ he
  | recovery app site effort => exact fun flag _ h => ⟨flag, hw.unique h ▸ he⟩

/-- Tasks keep to the journal as they are to. -/
theorem sound_attending (old : List GoalScript.Entry) (start : List Bool) :
    (attending old start).Sound := by
  intro t w owes
  cases t with
  | goal app inv =>
    obtain ⟨flags, hw⟩ := owes
    exact (aside_goalRun inv w flags hw).mono fun _ => grants_of_aside hw
  | fire app =>
    obtain ⟨flags, hw⟩ := owes
    exact (aside_callBackAll w flags hw).mono fun _ => grants_of_aside hw
  | recovery app site effort =>
    obtain ⟨flag, flags, hw⟩ := owes
    refine (attends_recoveryTurns site effort w flag flags hw).mono fun e he => ?_
    intro flag' flags' h
    cases hw.unique h
    exact he

theorem lenient_attending (old : List GoalScript.Entry) (start : List Bool) :
    (attending old start).Lenient where
  idle t w owes := by
    cases t with
    | goal app inv => exact grants_of_aside owes.choose_spec owes.choose_spec
    | fire app => exact grants_of_aside owes.choose_spec owes.choose_spec
    | recovery app site effort => exact fun flag _ h => ⟨flag, h⟩
  full _ _ _ _ := fun _ h => h

theorem StaysAside.run {p : Run α} {w : World} {flags : List Bool} (h : StaysAside old start p)
    (hw : w.Attends old start flags) : (p.run w).2.Attends old start flags :=
  (h w flags hw).ending ((sound_attending old start).perform (lenient_attending old start))

/-- A run that stays aside adds entries that do. -/
theorem entries_of_aside {p : Run α} {w : World} (candid : w.engine.registry.Candid)
    (h : ∀ old start, StaysAside old start p) :
    (p.run w).2.engine.registry.Candid ∧
      ∃ new, (p.run w).2.host.journal = new ++ w.host.journal ∧ Entry.Aside new := by
  have ends (flags : List Bool) := (h w.host.journal flags).run (.refl candid flags)
  obtain ⟨new, journal, -⟩ := (ends []).entries
  exact ⟨(ends []).candid, new, journal, fun flags => (ends flags).attended_eq journal⟩

/-- Wherever such a run gets, each presentation is the first one after an attempt in its goal. -/
theorem attended_of_reaches {p : Run α} {w : World} (candid : w.engine.registry.Candid)
    (h : ∀ old start, StaysAside old start p) {s : Point α} (reaches : Reaches (p, w) s) :
    ∃ new, s.2.host.journal = new ++ w.host.journal ∧ Entry.Attended new := by
  have here (flags : List Bool) : ∃ now, s.2.Attends w.host.journal flags now := by
    have begun : w.Attends w.host.journal flags flags := .refl candid flags
    exact (reaches.meets (sound_attending _ _) (h _ _ w flags begun) ⟨flags, begun⟩).2
  obtain ⟨_, -, new, journal, -⟩ := here []
  refine ⟨new, journal, fun flags => ?_⟩
  obtain ⟨now, attends⟩ := here flags
  rw [attends.attended_eq journal]
  rfl

theorem aside_runAll (result : Option Value) (goals : List Goal) :
    StaysAside old start (runAll app result goals) := by
  induction goals generalizing result with
  | nil => exact aside_pure _
  | cons goal rest ih => exact (aside_runGoal _).bind fun control => ih _

theorem aside_session (names : List String) : StaysAside old start (session app names) := by
  refine (aside_mapM (fun _ => aside_findGoal _) _).bind fun goals => ?_
  refine (aside_runAll _ _).bind fun _ => (aside_announce _ _).bind fun _ => ?_
  refine (aside_runAll _ _).bind fun _ => (aside_announce _ _).bind fun _ => ?_
  exact aside_runDeferred.bind fun _ => aside_pure _

/-- Outside the goals that it begins, a run attempts and presents nothing. -/
theorem Entry.staysAside {p : Run α} (h : Entry app p) : StaysAside old start p := by
  cases h with
  | session names => exact aside_session names
  | goal inv => exact aside_runGoal inv
  | call call values => exact aside_enter call values none
  | eventGoal call origin values => exact aside_runEventGoal call origin values

end GoalScript.Run
