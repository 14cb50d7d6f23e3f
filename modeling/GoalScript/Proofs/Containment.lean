import GoalScript.Proofs.Bracketing
import GoalScript.Proofs.Unwinding

namespace GoalScript

/-- It is no failure that is marked as handled. -/
def Ending.Contained {α : Type} (r : Ending α) : Prop :=
  ∀ e, r.1 = .error e → e.kind ≠ .alreadyHandled

def containing : Contract where
  always _ := True
  owes _ _ := True
  grants t _ r := match t with
    | .goal .. => r.Contained
    | .fire _ => r.Contained
    | .recovery .. => True

namespace Run

variable {α β : Type} {app : App} {w : World}

/-- Wherever it starts the run contains handled errors, if the tasks do that are to. -/
def Contains (p : Run α) : Prop := ∀ w, p.Meets containing Ending.Contained w

/-- Nothing is owed. -/
theorem meets_containing (p : Run α) (w : World) : p.Meets containing (fun _ => True) w := by
  induction p generalizing w with
  | done result => trivial
  | change f next ih => exact ⟨trivial, ih (f w) (f w)⟩
  | await task next ih => exact ⟨trivial, fun e _ => ih e.1 e.2⟩

theorem contains_pure (a : α) : Contains (pure a : Run α) := fun _ => meets_pure.mpr nofun

theorem contains_throw {x : EngineError} (h : x.kind ≠ .alreadyHandled) :
    Contains (throw x : Run α) := by
  intro w
  refine meets_throw.mpr fun e he => ?_
  cases he
  exact h

theorem Contains.bind {p : Run α} {f : α → Run β} (hp : Contains p) (hf : ∀ a, Contains (f a)) :
    Contains (p >>= f) := by
  intro w
  refine meets_bind.mpr ((hp w).mono ?_)
  rintro ⟨result, v⟩ hv
  cases result with
  | error x => exact fun e he => by cases he; exact hv x rfl
  | ok a => exact hf a v

theorem contains_get_bind {f : World → Run β} (h : ∀ w, Contains (f w)) :
    Contains (get >>= f) := fun w => meets_get_bind.mpr ⟨trivial, h w w⟩

theorem contains_update (f : World → World) : Contains (update f) :=
  fun _ => meets_update.mpr ⟨trivial, nofun⟩

theorem contains_set (v : World) : Contains (set v : Run PUnit) :=
  fun _ => meets_set.mpr ⟨trivial, nofun⟩

/-- Whatever the body comes to, its outcome is no failure. -/
theorem contains_outcome (p : Run α) : Contains (outcome p) :=
  fun w => meets_outcome.mpr ((meets_containing p w).mono fun _ _ => nofun)

theorem Contains.afterwards {p : Run α} (hp : Contains p) (restore : World → World) :
    Contains (afterwards p restore) :=
  fun w => meets_afterwards.mpr ((hp w).mono fun _ he => ⟨trivial, he⟩)

theorem contains_forM {f : α → Run PUnit} (h : ∀ a, Contains (f a)) (as : List α) :
    Contains (as.forM f) := by
  induction as with
  | nil => exact contains_pure _
  | cons a as ih => exact (h a).bind fun _ => ih

theorem contains_mapM {f : α → Run β} (h : ∀ a, Contains (f a)) (as : List α) :
    Contains (as.mapM f) := by
  have loop (as : List α) (done : List β) : Contains (List.mapM.loop f as done) := by
    induction as generalizing done with
    | nil => exact contains_pure _
    | cons a as ih => exact (h a).bind fun b => ih (b :: done)
  exact loop as []

theorem contains_ofMemory (r : Resolved α) : Contains (ofMemory r) := by
  cases r with
  | ok a => exact contains_pure a
  | error e => exact contains_throw (by cases e <;> nofun)

theorem contains_put (name : String) (value : Value) : Contains (put name value) :=
  contains_get_bind fun _ => (contains_ofMemory _).bind fun _ => contains_set _

theorem contains_bind (values : Table Value) : Contains (bind values) := by
  have written (entry : String × Value) : Contains (put entry.1 entry.2) := contains_put _ _
  exact contains_forM written values

theorem contains_runGoal (inv : Invocation) : Contains (runGoal app inv) :=
  fun _ => ⟨trivial, fun _ he => he⟩

theorem contains_fire : Contains (fire app) := by
  have begun : Contains (await (.fire app) done) := fun _ => ⟨trivial, fun _ he => he⟩
  exact begun.bind fun _ => contains_pure _

theorem contains_findGoal (name : String) : Contains (findGoal app name) := by
  unfold findGoal
  split
  · exact contains_pure _
  · exact contains_throw nofun

theorem contains_enter (call : GoalCall) (values : Table Value) (origin : Option EventOrigin) :
    Contains (enter app (runGoal app) call values origin) := by
  refine (contains_findGoal call.name).bind fun goal => contains_get_bind fun w => ?_
  refine (contains_ofMemory _).bind fun parameters => ?_
  refine (contains_bind _).bind fun _ => ?_
  exact contains_fire.bind fun _ => contains_runGoal _

theorem Contains.asEvent {p : Run α} (h : Contains p) : Contains (asEvent p) :=
  contains_get_bind fun _ => (contains_set _).bind fun _ => h.afterwards _

theorem contains_runEventGoal (call : GoalCall) (origin : EventOrigin) (values : Table Value) :
    Contains (runEventGoal app (runGoal app) call origin values) :=
  (contains_enter call values _).asEvent.bind fun _ => contains_pure _

theorem contains_callBack (e : PendingEvent) : Contains (callBack app (runGoal app) e) :=
  (contains_enter _ _ _).asEvent.bind fun _ => contains_pure _

theorem contains_takePending : Contains takePending :=
  contains_get_bind fun _ => (contains_set _).bind fun _ => contains_pure _

theorem contains_callBackAll : Contains (callBackAll app (runGoal app)) := by
  refine contains_takePending.bind fun events => ?_
  refine (contains_forM (fun e => ?_) events).bind fun _ => contains_pure _
  split
  · exact contains_callBack e
  · exact contains_update _

theorem contains_runDeferred : Contains (runDeferred app (runGoal app)) := by
  refine contains_get_bind fun w => ?_
  split
  · exact contains_pure _
  · refine (contains_update _).bind fun _ => (contains_update _).bind fun _ => ?_
    exact contains_forM (fun e => (contains_outcome _).bind fun _ => contains_pure _) _

theorem contains_announce (o : Occasion) (values : Table Value) :
    Contains (announce app (runGoal app) o values) := by
  refine contains_get_bind fun w => ?_
  split
  · exact contains_pure _
  · exact contains_forM (fun b => contains_runEventGoal _ _ _) _

/-- What a step fails with may be marked; what is made of it is not. -/
theorem contains_afterStep (goal : Goal) (result : Except EngineError Control) :
    Contains (afterStep app (runGoal app) goal result) := by
  cases result with
  | ok control => exact contains_pure control
  | error e =>
    refine (contains_outcome _).bind fun r => ?_
    cases r with
    | ok _ => exact contains_pure _
    | error e' =>
      dsimp only
      split
      · exact contains_pure _
      · rename_i hk
        exact contains_throw fun he => hk (beq_iff_eq.mpr he)

theorem contains_runSteps (goal : Goal) (steps : List Step) :
    Contains (runSteps app (runGoal app) goal steps) := by
  induction steps with
  | nil => exact contains_pure _
  | cons step rest ih =>
    refine (contains_outcome _).bind fun result => ?_
    refine (contains_afterStep goal result).bind fun control => ?_
    cases control with
    | proceed => exact ih
    | exit levels => exact contains_pure _
    | returned value => exact contains_pure _

theorem contains_goalBody (goal : Goal) : Contains (goalBody app (runGoal app) goal) := by
  refine (contains_announce _ _).bind fun _ => ?_
  refine (contains_runSteps goal goal.steps).bind fun control => ?_
  exact (contains_announce _ _).bind fun _ => contains_pure _

/-- No goal hands an error that is marked as handled to its caller. -/
theorem contains_goalRun (inv : Invocation) : Contains (goalRun app (runGoal app) inv) := by
  refine contains_get_bind fun w => ?_
  split
  · exact contains_throw nofun
  · exact (contains_update _).bind fun _ => (contains_goalBody inv.goal).afterwards _

theorem contains_runAll (result : Option Value) (goals : List Goal) :
    Contains (runAll app result goals) := by
  induction goals generalizing result with
  | nil => exact contains_pure _
  | cons goal rest ih => exact (contains_runGoal _).bind fun control => ih _

theorem contains_session (names : List String) : Contains (session app names) := by
  refine (contains_mapM (fun _ => contains_findGoal _) _).bind fun goals => ?_
  refine (contains_runAll _ _).bind fun _ => (contains_announce _ _).bind fun _ => ?_
  refine (contains_runAll _ _).bind fun _ => (contains_announce _ _).bind fun _ => ?_
  exact contains_runDeferred.bind fun _ => contains_pure _

/-- The programs of goals and callbacks contain handled errors, if the tasks that they wait for do.
-/
theorem sound_containing : containing.Sound := by
  rintro t w -
  cases t with
  | goal app inv => exact contains_goalRun inv w
  | fire app => exact contains_callBackAll w
  | recovery app site effort => exact meets_containing _ w

def Runner.Contains (goal : Runner) : Prop := ∀ app inv w, (goal app inv w).Contained

theorem Runner.Contains.carryOut {goal : Runner} (hg : goal.Contains)
    (again : App → Site → Effort → World → Ending Control) (t : Task) (w : World) :
    containing.grants t w (carryOut goal again t w) := by
  cases t with
  | goal app inv => exact hg app inv w
  | fire app =>
    refine Meets.ending (contains_callBackAll w) fun t v _ => ?_
    cases t with
    | goal app inv => exact hg app inv v
    | fire app => exact nofun
    | recovery app site effort => trivial
  | recovery app site effort => trivial

/-- Goals contain handled errors however little room there is. -/
theorem contains_goalWithin (room : Nat) : (goalWithin room).Contains := by
  induction room with
  | zero => exact fun app inv w e he => by cases he; nofun
  | succ room ih =>
    exact fun app inv w => Meets.ending (contains_goalRun inv w) fun t v _ => ih.carryOut _ t v

/-- Carried out, goals and callbacks contain handled errors. -/
theorem contains_perform (t : Task) (w : World) : containing.grants t w (perform t w) :=
  Runner.Contains.carryOut (fun _ inv w => contains_goalWithin _ _ inv w) _ t w

/-- Whatever a run comes to, and wherever it returns step by step, handled errors are contained. -/
structure Confines (p : Run α) (w : World) : Prop where
  run : (p.run w).Contained
  returns : ∀ result v, Reaches (p, w) (done result, v) → Ending.Contained (result, v)

/-- What contains handled errors by contract does so carried out and step by step. -/
theorem Contains.confines {p : Run α} (hp : Contains p) (w : World) : Confines p w where
  run := (hp w).ending fun t v _ => contains_perform t v
  returns _ _ hr := (hr.meets sound_containing (hp w) trivial).1

def stepErrorOccasion (site : Site) (e : EngineError) : Occasion :=
  { scope := .stepError, eventType := some .onError, goal := some site.goal.name,
    step := some site.step.text, key := some e.key }

def goalErrorOccasion (goal : Goal) (e : EngineError) : Occasion :=
  { scope := .goalError, eventType := some .onError, goal := some goal.name, key := some e.key }

/-- Outside event goals an error that is new to error events is handed to the goals bound to it, up
to the first that fails. -/
structure Reports (app : App) (o : Occasion) (e : EngineError) (w : World)
    (firings : List Firing) (r : Ending Unit) : Prop where
  down : w.engine.context.inEvent = false
  fresh : e.kind ≠ .alreadyHandled
  fires : Fires
    (fun b => runEventGoal app (runGoal app) b.goalToCall ⟨o.scope, .onError⟩ (errorParameters e))
    (o.select app.library.events) w firings r

section

variable {o : Occasion} {e f : EngineError} {u v : World} {firings : List Firing}

theorem Fires.run_runErrorBindings {scope : EventScope} {bindings : List EventBinding}
    {r : Ending Unit}
    (h : Fires (fun b =>
      runEventGoal app (runGoal app) b.goalToCall ⟨scope, .onError⟩ (errorParameters e))
      bindings w firings r) (hr : r = (.error f, v)) :
    (runErrorBindings app (runGoal app) scope e bindings).run w =
      (.error (.handled (.aggregate e f)), v) := by
  induction h with
  | done => cases hr
  | failed h =>
    cases hr
    rw [runErrorBindings, run_bind, run_outcome, h]
    rfl
  | fired h _ ih =>
    rw [runErrorBindings, run_bind, run_outcome, h]
    exact ih hr

/-- A goal that fails while an error is reported marks the error. -/
theorem Reports.run_announceError (h : Reports app o e w firings (.error f, v)) :
    (announceError app (runGoal app) o e).run w = (.error (.handled (.aggregate e f)), v) := by
  have marked := h.fires.run_runErrorBindings rfl
  rw [announceError, run_get_bind, h.down, beq_eq_false_iff_ne.mpr h.fresh]
  simp only [Bool.or_self, Bool.false_eq_true, ↓reduceIte]
  split
  · rename_i hnil
    rw [hnil] at marked
    cases congrArg Prod.fst marked
  · exact marked

/-- An error that is marked already is thrown again, and no goal is called for it. -/
theorem run_announceError_of_handled (h : e.kind = .alreadyHandled) :
    (announceError app (runGoal app) o e).run w = (.error e, w) := by
  rw [announceError, run_get_bind]
  simp only [h, BEq.rfl, Bool.or_true, ↓reduceIte]
  rfl

end

/-- How the failure of a step comes to be marked as handled: by a goal that is bound to it and fails
itself, where the step or where its goal reports it, or before either does. -/
inductive Visit.Marked (app : App) (goal : Goal) : Visit → World → Prop where
  | byStepEvents {step : Step} {here b v : World} {c : Course} {t : Turn} {e f : EngineError}
    {firings : List Firing} (turn : t ∈ c.turns) (given : t.verdict = (.ok (.surrender e), b))
    (reports : Reports app (stepErrorOccasion ⟨goal, step⟩ e) e b firings (.error f, v)) :
    Marked app goal ⟨step, here, some c⟩ (leaveStep here (closeStep step v))
  | byGoalEvents {step : Step} {here u v : World} {c : Course} {e f : EngineError}
    {firings : List Firing} (ends : c.ending = (.error e, u))
    (reports : Reports app (goalErrorOccasion goal e) e u firings (.error f, v)) :
    Marked app goal ⟨step, here, some c⟩ v
  | before {step : Step} {here v : World} {c : Course} {e : EngineError}
    (ends : c.ending = (.error e, v)) (handled : e.kind = .alreadyHandled) :
    Marked app goal ⟨step, here, some c⟩ v

/-- The step has failed, and its failure comes out of the error events of its goal marked as
handled, in `v`. -/
def Visit.Handled (app : App) (goal : Goal) (x : Visit) (v : World) : Prop :=
  ∃ c e u e', x.course = some c ∧ c.ending = (.error e, u) ∧
    (goalErrorEvents app (runGoal app) goal e).run u = (.error e', v) ∧
    e'.kind = .alreadyHandled

section

variable {goal : Goal} {steps : List Step} {visits : List Visit} {r : Ending Control}
  {x : Visit} {v : World}

/-- What step error events mark is what the step fails with. -/
theorem StepRuns.ending_of_reports {site : Site} {here b : World} {c : Course} {t : Turn}
    {e f : EngineError} {firings : List Firing} (h : StepRuns app site here c)
    (turn : t ∈ c.turns) (given : t.verdict = (.ok (.surrender e), b))
    (reports : Reports app (stepErrorOccasion site e) e b firings (.error f, v)) :
    c.ending = (.error (.handled (.aggregate e f)), leaveStep here (closeStep site.step v)) := by
  have marked : (surrender app (runGoal app) site e).run b =
      (.error (.handled (.aggregate e f)), v) := run_bind_of_error reports.run_announceError
  cases h with
  | refused events => exact absurd turn List.not_mem_nil
  | failed events attempts =>
    have hr := ((attempts.reported turn given).2).trans marked
    cases hr
    rfl
  | disturbed events attempts ends =>
    cases congrArg Prod.fst (((attempts.reported turn given).2).trans marked)
  | finished events attempts ends =>
    cases congrArg Prod.fst (((attempts.reported turn given).2).trans marked)

theorem Visit.Marked.handled (h : x.Marked app goal v)
    (genuine : x.Genuine app goal) : x.Handled app goal v := by
  cases h with
  | byStepEvents turn given reports =>
    have ends := (genuine.runs rfl).ending_of_reports turn given reports
    exact ⟨_, _, _, _, rfl, ends, run_announceError_of_handled rfl, rfl⟩
  | byGoalEvents ends reports => exact ⟨_, _, _, _, rfl, ends, reports.run_announceError, rfl⟩
  | before ends handled =>
    exact ⟨_, _, _, _, rfl, ends, run_announceError_of_handled handled, handled⟩

/-- A step whose failure is marked as handled is the last one, and the loop stops as for an exit. -/
theorem Loop.of_handled (h : Loop app goal steps w visits r) (hx : x ∈ visits)
    (hh : x.Handled app goal v) : visits.getLast? = some x ∧ r = (.ok (.exit 1), v) := by
  obtain ⟨c, e, u, e', hc, he, hg, hk⟩ := hh
  have last {x' : Visit} {visits : List Visit} (hx' : visits.getLast? = some x) :
      (x' :: visits).getLast? = some x := by
    rw [List.getLast?_cons, hx']
    rfl
  induction h with
  | done => exact absurd hx List.not_mem_nil
  | passed _ _ ih =>
    rcases List.mem_cons.mp hx with rfl | hx
    · cases hc
    · exact ⟨last (ih hx).1, (ih hx).2⟩
  | gone _ _ ends _ ih =>
    rcases List.mem_cons.mp hx with rfl | hx
    · cases hc
      cases ends.symm.trans he
    · exact ⟨last (ih hx).1, (ih hx).2⟩
  | stopped _ _ ends _ =>
    obtain rfl := List.mem_singleton.mp hx
    cases hc
    cases ends.symm.trans he
  | failed _ _ ends =>
    obtain rfl := List.mem_singleton.mp hx
    cases hc
    cases ends.symm.trans he
    refine ⟨rfl, ?_⟩
    rw [run_afterStep, hg]
    simp only [hk, ↓reduceIte]

end

/-- The failure of the step `x`, marked as handled in `v`, is the end of the goal and of nothing
else: no later step is run, the After goals are, and the caller goes on if they do not fail. -/
structure GoalCourse.Closes (app : App) (inv : Invocation) (w : World) (c : GoalCourse) (x : Visit)
    (v : World) : Prop where
  last : c.visits.getLast? = some x
  looped : c.looped = some (.ok (.exit 1), v)
  after : ∃ firings r, c.after = some firings ∧
    (goalEvents app (runGoal app) inv.goal .after).run v = r ∧
    (v.engine.context.inEvent = false →
      Rung app (goalOccasion inv.goal .after) (goalValues inv.goal) v firings r) ∧
    c.ending = (r.1.map fun _ => .proceed, leaveGoal inv.goal w r.2)
  caller : ∀ u, c.ending = (.ok .proceed, u) →
    w.engine.stack.length < app.config.maxCallDepth → (runGoal app inv).run w = (.ok .proceed, u) ∧
      ∀ site a, Calls app site a inv w →
        (attempt app (runGoal app) site).run a = (.ok .proceed, u)

/-- The failure of a step that is marked as handled ends the goal of that step and nothing else. -/
theorem GoalRuns.closes {inv : Invocation} {c : GoalCourse} {x : Visit} {v : World}
    (h : GoalRuns app inv w c) (hx : x ∈ c.visits) (hm : x.Marked app inv.goal v) :
    c.Closes app inv w x v := by
  have goesOn (u : World) (he : c.ending = (.ok .proceed, u))
      (hw : w.engine.stack.length < app.config.maxCallDepth) :
      (runGoal app inv).run w = (.ok .proceed, u) ∧ ∀ site a, Calls app site a inv w →
        (attempt app (runGoal app) site).run a = (.ok .proceed, u) := by
    have hr : (runGoal app inv).run w = (.ok .proceed, u) := (h.run_eq hw).trans he
    exact ⟨hr, fun site a calls => calls.run_attempt hr nofun⟩
  cases h with
  | refused events => exact absurd hx List.not_mem_nil
  | failed events steps =>
    have ended := steps.of_handled hx (hm.handled (steps.visited x hx).2)
    cases congrArg Prod.fst ended.2
  | disturbed events steps ends =>
    obtain ⟨last, hr⟩ := steps.of_handled hx (hm.handled (steps.visited x hx).2)
    cases hr
    exact ⟨last, rfl, ⟨_, _, rfl, ends.run_eq, ends.rung, rfl⟩, goesOn⟩
  | finished events steps ends =>
    obtain ⟨last, hr⟩ := steps.of_handled hx (hm.handled (steps.visited x hx).2)
    cases hr
    exact ⟨last, rfl, ⟨_, _, rfl, ends.run_eq, ends.rung, rfl⟩, goesOn⟩

/-- In every state and whatever modules and whoever is asked do, no goal, call of a goal or session
comes to a failure that is marked as handled. Such a failure ends the goal of its step. -/
theorem handled_errors_are_contained (app : App) (w : World) :
    (∀ inv, Confines (runGoal app inv) w) ∧
    (∀ call values, Confines (callGoal app (runGoal app) call values) w) ∧
    (∀ names, Confines (session app names) w) ∧
    (∀ inv, ∃ c, GoalRuns app inv w c) ∧
    (∀ inv c, GoalRuns app inv w c →
      (w.engine.stack.length < app.config.maxCallDepth → (runGoal app inv).run w = c.ending) ∧
      ∀ x ∈ c.visits, ∀ v, x.Marked app inv.goal v → c.Closes app inv w x v) := by
  refine ⟨fun inv => ?_, fun call values => ?_, fun names => ?_, fun inv => ?_, fun inv c h => ?_⟩
  · exact (contains_runGoal inv).confines w
  · exact (contains_enter call values none).confines w
  · exact (contains_session names).confines w
  · exact exists_goalRuns app inv w
  · exact ⟨h.run_eq, fun x hx v hm => h.closes hx hm⟩

/-- The goal that is to be told of the failure of a step is missing. -/
theorem handled_errors_are_contained_missing :
    let report : EventBinding := {
      scope := .goalError, eventType := .onError, goalToCall := { name := "Missing" } }
    let goal : Goal := .new "Work" [.new "nowhere" { function := "go" }]
    let app : App := ⟨{ events := [report] }, {}⟩
    let w : World := ⟨.start 0 ⟨{}, 0⟩ false, {}⟩
    ∃ c x v, GoalRuns app { goal } w c ∧ x ∈ c.visits ∧ x.Marked app goal v ∧
      c.Closes app { goal } w x v ∧ (runGoal app { goal }).run w = (.ok .proceed, c.ending.2) := by
  intro report goal app w
  let step : Step := Step.new "nowhere" { function := "go" }
  let here : World := enterGoal { goal } w
  let started : World := (enterStep step here).record (.stepStarted goal.name 0)
  let failed : World := leaveStep here (started.record (.attempted goal.name 0))
  let e : EngineError := .registry (.notRegistered "nowhere" (Suggestion.nearest? "nowhere" []))
  have attempts : (turnAt app ⟨goal, step⟩ {} started).verdict =
      (.error e, started.record (.attempted goal.name 0)) := rfl
  obtain ⟨k, runs, ends⟩ : ∃ k, StepRuns app ⟨goal, step⟩ here k ∧ k.ending = (.error e, failed) :=
    ⟨_, .failed (.fires rfl .done) (.failed attempts), rfl⟩
  have missing : (runEventGoal app (runGoal app) report.goalToCall ⟨.goalError, .onError⟩
      (errorParameters e)).run failed =
      (.error (.goalNotFound "Missing" (Suggestion.nearest? "Missing" [])), failed) := rfl
  have reports : Reports app (goalErrorOccasion goal e) e failed _ (.error _, failed) :=
    ⟨rfl, nofun, .failed missing⟩
  have marked : Visit.Marked app goal ⟨step, here, some k⟩ failed := .byGoalEvents ends reports
  have looped : (afterStep app (runGoal app) goal (.error e)).run failed =
      (.ok (.exit 1), failed) := rfl
  have steps : Loop app goal goal.steps here [⟨step, here, some k⟩] (.ok (.exit 1), failed) :=
    looped ▸ .failed rfl runs ends
  have course : GoalRuns app { goal } w _ := .finished (.fires rfl .done) steps (.fires rfl .done)
  have visited := List.mem_singleton_self (⟨step, here, some k⟩ : Visit)
  obtain ⟨-, -, -, -, closes⟩ := handled_errors_are_contained app w
  obtain ⟨run, closes⟩ := closes { goal } _ course
  exact ⟨_, _, _, course, visited, marked, closes _ visited _ marked, run (by decide)⟩

end Run

end GoalScript
