import GoalScript.Proofs.Unfolding

namespace GoalScript.Run

variable {α β : Type} {app : App} {site : Site} {u v w : World}

theorem run_forM_outcome {f : α → Run Unit} (as : List α) (w : World) :
    ((as.forM fun a => do let _ ← outcome (f a)).run w).1 = .ok () := by
  induction as generalizing w with
  | nil => rfl
  | cons a as ih =>
    have h : (do let _ ← outcome (f a) : Run Unit).run w = (.ok (), ((f a).run w).2) := by
      rw [run_bind, run_outcome]
      rfl
    exact (congrArg Prod.fst (run_bind_of_ok h)).trans (ih _)

/-- What has been put off may fail without consequence. -/
theorem run_runDeferred (nested : Nested) (w : World) :
    (runDeferred app nested).run w = (.ok (), ((runDeferred app nested).run w).2) := by
  refine Prod.ext ?_ rfl
  rw [runDeferred, run_get_bind]
  split
  · rfl
  · exact run_forM_outcome _ _

theorem run_recordDone (site : Site) (w : World) :
    (recordDone site).run w = (.ok (), ((recordDone site).run w).2) := by
  unfold recordDone
  split <;> rfl

theorem run_turn_of_ok {effort : Effort} {control : Control}
    (h : (attempt app (runGoal app) site).run w = (.ok control, u)) :
    (turn app (runGoal app) site effort).run w = (.ok (.settled control), u) := by
  rw [turn, run_bind, run_outcome, h]
  rfl

theorem run_turn_of_error {effort : Effort} {e : EngineError}
    (h : (attempt app (runGoal app) site).run w = (.error e, u)) :
    (turn app (runGoal app) site effort).run w =
      (judge app (runGoal app) site effort e).run u := by
  rw [turn, run_bind, run_outcome, h]

theorem run_findGoal {name : String} {goal : Goal} (h : app.library.get? name = some goal) :
    (findGoal app name).run w = (.ok goal, w) := by
  rw [findGoal, h]
  rfl

/-- Events that nothing is bound to call nothing. -/
theorem run_announce_of_nil {o : Occasion} {values : Table Value} (nested : Nested)
    (h : app.library.events = []) : (announce app nested o values).run w = (.ok (), w) := by
  rw [announce, run_get_bind, h]
  split <;> rfl

/-- Attempts that were answered or retried lead from one effort and world to another. -/
inductive Tries (app : App) (site : Site) : Effort → World → Effort → World → Prop where
  | here {effort : Effort} {w : World} : Tries app site effort w effort w
  | answered {effort effort' : Effort} {w v w' : World}
    (h : (turn app (runGoal app) site effort).run w = (.ok .answered, v))
    (rest : Tries app site effort v effort' w') : Tries app site effort w effort' w'
  | retried {effort effort' : Effort} {w v w' : World} {e : EngineError}
    (h : (turn app (runGoal app) site effort).run w = (.ok (.retry e), v))
    (rest : Tries app site (effort.afterRetry e) v effort' w') : Tries app site effort w effort' w'

/-- The recovery comes to what it comes to from the attempt it has got to. -/
theorem Tries.run_recovery_eq {effort effort' : Effort} (h : Tries app site effort w effort' u) :
    (recovery app (runGoal app) site effort).run w =
      (recovery app (runGoal app) site effort').run u := by
  induction h with
  | here => rfl
  | answered h rest ih =>
    rw [recovery, run_bind_of_ok h]
    exact (perform_recovery ..).trans ih
  | retried h rest ih =>
    rw [recovery, run_bind_of_ok h]
    exact (perform_recovery ..).trans ih

/-- A turn that settles the step ends the recovery, whatever came before it. -/
theorem Tries.run_recovery_of_settled {effort effort' : Effort} {control : Control}
    (h : Tries app site effort w effort' u)
    (ht : (turn app (runGoal app) site effort').run u = (.ok (.settled control), v)) :
    (recovery app (runGoal app) site effort).run w = (.ok control, v) := by
  rw [h.run_recovery_eq, recovery, run_bind_of_ok ht]
  rfl

/-- An attempt that succeeds ends the recovery. -/
theorem Tries.run_recovery {effort effort' : Effort} {control : Control}
    (h : Tries app site effort w effort' u)
    (ha : (attempt app (runGoal app) site).run u = (.ok control, v)) :
    (recovery app (runGoal app) site effort).run w = (.ok control, v) :=
  h.run_recovery_of_settled (run_turn_of_ok ha)

def afterAttempt (site : Site) (v : World) : World :=
  ((recordDone site).run (closeStep site.step v)).2

/-- A Before goal that fails is the end of the step. -/
theorem run_performStep_of_refused {e : EngineError}
    (hb : (stepEvents app (runGoal app) site .before).run w = (.error e, v)) :
    (performStep app (runGoal app) site).run w = (.error e, v) := run_bind_of_error hb

theorem run_attempts (app : App) (site : Site) (w : World) :
    (afterwards (attemptAll app site) (closeStep site.step)).run w =
      (((recovery app (runGoal app) site {}).run w).1,
        closeStep site.step ((recovery app (runGoal app) site {}).run w).2) := by
  rw [run_afterwards, attemptAll, run_await, perform_recovery]

theorem run_performStep_of_failed {e : EngineError}
    (hb : (stepEvents app (runGoal app) site .before).run w = (.ok (), u))
    (hr : (recovery app (runGoal app) site {}).run
      (u.record (.stepStarted site.goal.name site.step.index)) = (.error e, v)) :
    (performStep app (runGoal app) site).run w = (.error e, closeStep site.step v) := by
  rw [performStep, run_bind_of_ok hb]
  refine (run_bind_of_ok (run_update _ u)).trans ?_
  rw [run_bind, run_attempts, hr]

/-- After a recovery that has succeeded come the After events, and then what was put off. -/
theorem run_performStep_of_tried {control : Control}
    (hb : (stepEvents app (runGoal app) site .before).run w = (.ok (), u))
    (hr : (recovery app (runGoal app) site {}).run
      (u.record (.stepStarted site.goal.name site.step.index)) = (.ok control, v)) :
    (performStep app (runGoal app) site).run w =
      (do
        stepEvents app (runGoal app) site .after
        runDeferred app (runGoal app)
        return control : Run Control).run (afterAttempt site v) := by
  have attempts : (afterwards (attemptAll app site) (closeStep site.step)).run
      (u.record (.stepStarted site.goal.name site.step.index)) =
      (.ok control, closeStep site.step v) := by
    rw [run_attempts, hr]
  rw [performStep, run_bind_of_ok hb]
  refine (run_bind_of_ok (run_update _ u)).trans ?_
  rw [run_bind_of_ok attempts]
  exact run_bind_of_ok (run_recordDone site _)

/-- A step comes to what its last attempt comes to, if none of its events fails. -/
theorem run_performStep {effort : Effort} {control : Control} {a : World}
    (hb : (stepEvents app (runGoal app) site .before).run w = (.ok (), u))
    (ht : Tries app site {} (u.record (.stepStarted site.goal.name site.step.index)) effort a)
    (ha : (attempt app (runGoal app) site).run a = (.ok control, v)) {x : World}
    (he : (stepEvents app (runGoal app) site .after).run (afterAttempt site v) = (.ok (), x)) :
    (performStep app (runGoal app) site).run w =
      (.ok control, ((runDeferred app (runGoal app)).run x).2) := by
  refine (run_performStep_of_tried hb (ht.run_recovery ha)).trans ?_
  exact (run_bind_of_ok he).trans (run_bind_of_ok (run_runDeferred _ x))

theorem run_runStep {r : Ending Control} (hp : passesOver w site = false)
    (h : (performStep app (runGoal app) site).run (enterStep site.step w) = r) :
    (runStep app (runGoal app) site).run w = (r.1, leaveStep w r.2) := by
  rw [runStep, run_get_bind, hp]
  simp only [Bool.false_eq_true, ↓reduceIte]
  rw [run_bind_of_ok (run_update _ w), run_afterwards, h]

section

variable {goal : Goal} {step : Step} {rest : List Step}

theorem run_runSteps_of_proceed
    (h : (runStep app (runGoal app) ⟨goal, step⟩).run w = (.ok .proceed, v)) :
    (runSteps app (runGoal app) goal (step :: rest)).run w =
      (runSteps app (runGoal app) goal rest).run v := by
  rw [runSteps, run_bind, run_outcome, h]
  rfl

/-- No step is run after one that stops the goal. -/
theorem run_runSteps_of_stop {control : Control}
    (h : (runStep app (runGoal app) ⟨goal, step⟩).run w = (.ok control, v))
    (hc : control.isProceed = false) :
    (runSteps app (runGoal app) goal (step :: rest)).run w = (.ok control, v) := by
  rw [runSteps, run_bind, run_outcome, h]
  cases control with
  | proceed => cases hc
  | exit levels => rfl
  | returned value => rfl

/-- Steps that all proceed are passed one by one. -/
theorem run_runSteps_append (passed : List Step)
    (h : (runSteps app (runGoal app) goal passed).run u = (.ok .proceed, w)) :
    (runSteps app (runGoal app) goal (passed ++ rest)).run u =
      (runSteps app (runGoal app) goal rest).run w := by
  induction passed generalizing u with
  | nil =>
    cases h
    rfl
  | cons step passed ih =>
    rw [runSteps, run_bind, run_outcome] at h
    rw [List.cons_append, runSteps, run_bind, run_outcome]
    dsimp only at h ⊢
    rw [run_bind] at h ⊢
    rcases hc : (afterStep app (runGoal app) goal
      ((runStep app (runGoal app) ⟨goal, step⟩).run u).1).run
      ((runStep app (runGoal app) ⟨goal, step⟩).run u).2 with ⟨e | control, v⟩
    · rw [hc] at h
      cases congrArg Prod.fst h
    · rw [hc] at h
      cases control with
      | proceed => exact ih h
      | exit levels => cases congrArg Prod.fst h
      | returned value => cases congrArg Prod.fst h

theorem run_goalRun_of_body {inv : Invocation} {r : Ending Control}
    (hw : w.engine.stack.length < app.config.maxCallDepth)
    (h : (goalBody app (runGoal app) inv.goal).run (enterGoal inv w) = r) :
    (goalRun app (runGoal app) inv).run w = (r.1, leaveGoal inv.goal w r.2) := by
  rw [goalRun, run_get_bind]
  simp only [Nat.not_le.mpr hw, ↓reduceIte]
  rw [run_bind_of_ok (run_update _ w), run_afterwards, h]

/-- A goal comes to what its loop comes to, if none of its events fails. -/
theorem run_goalRun {inv : Invocation} {control : Control} {x : World}
    (hw : w.engine.stack.length < app.config.maxCallDepth)
    (hb : (goalEvents app (runGoal app) inv.goal .before).run (enterGoal inv w) = (.ok (), u))
    (hs : (runSteps app (runGoal app) inv.goal inv.goal.steps).run u = (.ok control, v))
    (ha : (goalEvents app (runGoal app) inv.goal .after).run v = (.ok (), x)) :
    (goalRun app (runGoal app) inv).run w = (.ok control.unwind, leaveGoal inv.goal w x) := by
  have body : (goalBody app (runGoal app) inv.goal).run (enterGoal inv w) =
      (.ok control.unwind, x) :=
    (run_bind_of_ok hb).trans ((run_bind_of_ok hs).trans (run_bind_of_ok ha))
  exact run_goalRun_of_body hw body

end

end GoalScript.Run
