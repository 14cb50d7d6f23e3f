import GoalScript.Proofs.Turns

namespace GoalScript

def goalOccasion (goal : Goal) (type : EventType) : Occasion :=
  { scope := .goal, eventType := some type, goal := some goal.name }

def stepOccasion (site : Site) (type : EventType) : Occasion :=
  { scope := .step, eventType := some type, goal := some site.goal.name,
    step := some site.step.text }

namespace Run

variable {app : App} {u v w : World}

/-- The run of a bound goal: for which binding, where it was begun and how it ended. -/
structure Firing where
  binding : EventBinding
  start : World
  ending : Ending Unit

/-- The bindings' goals are run one after the other, up to the first that fails. -/
inductive Fires (bound : EventBinding → Run Unit) :
    List EventBinding → World → List Firing → Ending Unit → Prop where
  | done {w : World} : Fires bound [] w [] (.ok (), w)
  | failed {b : EventBinding} {rest : List EventBinding} {w v : World} {e : EngineError}
    (h : (bound b).run w = (.error e, v)) :
    Fires bound (b :: rest) w [⟨b, w, (.error e, v)⟩] (.error e, v)
  | fired {b : EventBinding} {rest : List EventBinding} {w v : World} {firings : List Firing}
    {r : Ending Unit} (h : (bound b).run w = (.ok (), v)) (others : Fires bound rest v firings r) :
    Fires bound (b :: rest) w (⟨b, w, (.ok (), v)⟩ :: firings) r

namespace Fires

variable {bound : EventBinding → Run Unit} {bindings : List EventBinding} {firings : List Firing}
  {r : Ending Unit}

theorem exists_of (bound : EventBinding → Run Unit) (bindings : List EventBinding) (w : World) :
    ∃ firings, Fires bound bindings w firings ((bindings.forM bound).run w) := by
  induction bindings generalizing w with
  | nil => exact ⟨[], .done⟩
  | cons b rest ih =>
    rcases h : (bound b).run w with ⟨e | _, v⟩
    · have hr : ((b :: rest).forM bound).run w = (.error e, v) := run_bind_of_error h
      rw [hr]
      exact ⟨_, .failed h⟩
    · obtain ⟨firings, hf⟩ := ih v
      have hr : ((b :: rest).forM bound).run w = (rest.forM bound).run v := run_bind_of_ok h
      rw [hr]
      exact ⟨_, .fired h hf⟩

theorem run_eq (h : Fires bound bindings w firings r) : (bindings.forM bound).run w = r := by
  induction h with
  | done => rfl
  | failed h => exact run_bind_of_error h
  | fired h _ ih => exact (run_bind_of_ok h).trans ih

/-- The goals that have been run are the first ones, in order. -/
theorem isPrefix (h : Fires bound bindings w firings r) :
    firings.map Firing.binding <+: bindings := by
  induction h with
  | done => exact List.prefix_rfl
  | @failed b rest w v e _ => exact ⟨rest, rfl⟩
  | fired _ _ ih => exact List.cons_prefix_cons.mpr ⟨rfl, ih⟩

/-- Without failure all goals have been run. -/
theorem all_of_ok (h : Fires bound bindings w firings r) (hr : r.1 = .ok ()) :
    firings.map Firing.binding = bindings ∧ ∀ f ∈ firings, f.ending.1 = .ok () := by
  induction h with
  | done => exact ⟨rfl, fun f hf => absurd hf List.not_mem_nil⟩
  | failed _ => cases hr
  | fired _ _ ih =>
    obtain ⟨hb, hall⟩ := ih hr
    refine ⟨congrArg _ hb, fun f hf => ?_⟩
    rcases List.mem_cons.mp hf with rfl | hf
    · rfl
    · exact hall f hf

/-- Only the last one can fail, and then what all come to is its failure. -/
theorem last_of_error (h : Fires bound bindings w firings r) {e : EngineError}
    (hr : r.1 = .error e) : ∃ fired last, firings = fired ++ [last] ∧ last.ending = r ∧
      ∀ f ∈ fired, f.ending.1 = .ok () := by
  induction h with
  | done => cases hr
  | failed _ => exact ⟨[], _, rfl, rfl, fun f hf => absurd hf List.not_mem_nil⟩
  | fired _ _ ih =>
    obtain ⟨fired, last, rfl, hl, hall⟩ := ih hr
    refine ⟨_ :: fired, last, rfl, hl, fun f hf => ?_⟩
    rcases List.mem_cons.mp hf with rfl | hf
    · rfl
    · exact hall f hf

end Fires

/-- An occasion is announced: the goals bound to it are run, unless an event goal runs already. -/
inductive Announced (app : App) (o : Occasion) (values : Table Value) :
    World → List Firing → Ending Unit → Prop where
  | silent {w : World} (up : w.engine.context.inEvent = true) :
    Announced app o values w [] (.ok (), w)
  | fires {w : World} {firings : List Firing} {r : Ending Unit}
    (down : w.engine.context.inEvent = false)
    (h : Fires (fun b => runEventGoal app (runGoal app) b.goalToCall ⟨o.scope, b.eventType⟩ values)
      (o.select app.library.events) w firings r) : Announced app o values w firings r

namespace Announced

variable {o : Occasion} {values : Table Value} {firings : List Firing} {r : Ending Unit}

theorem exists_of (app : App) (o : Occasion) (values : Table Value) (w : World) :
    ∃ firings, Announced app o values w firings ((announce app (runGoal app) o values).run w) := by
  rw [announce, run_get_bind]
  cases hc : w.engine.context.inEvent with
  | true => exact ⟨[], .silent hc⟩
  | false =>
    obtain ⟨firings, h⟩ := Fires.exists_of _ (o.select app.library.events) w
    exact ⟨firings, .fires hc h⟩

theorem run_eq (h : Announced app o values w firings r) :
    (announce app (runGoal app) o values).run w = r := by
  rw [announce, run_get_bind]
  cases h with
  | silent up =>
    rw [if_pos up]
    rfl
  | fires down h =>
    rw [down]
    exact h.run_eq

theorem follows (h : Announced app o values w firings r) : w.Follows Eq r.2 := by
  rw [← h.run_eq]
  exact (keeps_announce (fun _ _ => trivial) fun _ => trivial).follows

end Announced

structure Course where
  before : List Firing
  -- What the Before events have come to.
  begun : Ending Unit
  turns : List Turn
  -- What the recovery has come to; absent when the step is not attempted.
  recovered : Option (Ending Control)
  -- Absent when the After events are not announced.
  after : Option (List Firing)
  ending : Ending Control

def goalValues (goal : Goal) : Table Value := [("goal", .text goal.name)]

def stepValues (site : Site) : Table Value :=
  [("goal", .text site.goal.name), ("step", .text site.step.text)]

/-- The course of a step that is not passed over where the goal gets to it. Between its events stand
all its turns. -/
inductive StepRuns (app : App) (site : Site) (here : World) : Course → Prop where
  | refused {before : List Firing} {e : EngineError} {v : World}
    (events : Announced app (stepOccasion site .before) (stepValues site)
      (enterStep site.step here) before (.error e, v)) :
    StepRuns app site here
      ⟨before, (.error e, v), [], none, none, (.error e, leaveStep here v)⟩
  | failed {before : List Firing} {turns : List Turn} {e : EngineError} {u v : World}
    (events : Announced app (stepOccasion site .before) (stepValues site)
      (enterStep site.step here) before (.ok (), u))
    (attempts : Turns app site {} (u.record (.stepStarted site.goal.name site.step.index)) turns
      (.error e, v)) :
    StepRuns app site here
      ⟨before, (.ok (), u), turns, some (.error e, v), none,
        (.error e, leaveStep here (closeStep site.step v))⟩
  | disturbed {before after : List Firing} {turns : List Turn} {control : Control}
    {e : EngineError} {u v x : World}
    (events : Announced app (stepOccasion site .before) (stepValues site)
      (enterStep site.step here) before (.ok (), u))
    (attempts : Turns app site {} (u.record (.stepStarted site.goal.name site.step.index)) turns
      (.ok control, v))
    (ends : Announced app (stepOccasion site .after) (stepValues site) (afterAttempt site v) after
      (.error e, x)) :
    StepRuns app site here
      ⟨before, (.ok (), u), turns, some (.ok control, v), some after,
        (.error e, leaveStep here x)⟩
  | finished {before after : List Firing} {turns : List Turn} {control : Control} {u v x : World}
    (events : Announced app (stepOccasion site .before) (stepValues site)
      (enterStep site.step here) before (.ok (), u))
    (attempts : Turns app site {} (u.record (.stepStarted site.goal.name site.step.index)) turns
      (.ok control, v))
    (ends : Announced app (stepOccasion site .after) (stepValues site) (afterAttempt site v) after
      (.ok (), x)) :
    StepRuns app site here
      ⟨before, (.ok (), u), turns, some (.ok control, v), some after,
        (.ok control, leaveStep here ((runDeferred app (runGoal app)).run x).2)⟩

/-- A recovery comes to what its turns come to. -/
theorem Turns.run_eq {site : Site} {effort : Effort} {turns : List Turn} {r : Ending Control}
    (h : Turns app site effort w turns r) :
    (recovery app (runGoal app) site effort).run w = r := by
  induction h with
  | settled h => exact run_bind_of_ok h
  | failed h => exact run_bind_of_error h
  | surrendered h => exact run_bind_of_ok h
  | answered h _ ih => exact (run_bind_of_ok h).trans ((perform_recovery ..).trans ih)
  | retried h _ ih => exact (run_bind_of_ok h).trans ((perform_recovery ..).trans ih)

section

variable {site : Site} {here : World}

/-- A step comes to what its course says. -/
theorem StepRuns.run_eq {c : Course} (h : StepRuns app site here c)
    (hp : passesOver here site = false) :
    (runStep app (runGoal app) site).run here = c.ending := by
  cases h with
  | refused events => exact run_runStep hp (run_performStep_of_refused events.run_eq)
  | failed events attempts =>
    exact run_runStep hp (run_performStep_of_failed events.run_eq attempts.run_eq)
  | @disturbed before after turns control e u v x events attempts ends =>
    have tried := run_performStep_of_tried events.run_eq attempts.run_eq
    have ended : (performStep app (runGoal app) site).run (enterStep site.step here) =
        (.error e, x) := tried.trans (run_bind_of_error ends.run_eq)
    exact run_runStep hp ended
  | @finished before after turns control u v x events attempts ends =>
    have tried := run_performStep_of_tried events.run_eq attempts.run_eq
    have ended : (performStep app (runGoal app) site).run (enterStep site.step here) =
        (.ok control, ((runDeferred app (runGoal app)).run x).2) := by
      refine tried.trans ((run_bind_of_ok ends.run_eq).trans ?_)
      exact run_bind_of_ok (run_runDeferred _ _)
    exact run_runStep hp ended

theorem Turns.follows {effort : Effort} {turns : List Turn} {r : Ending Control}
    (h : Turns app site effort w turns r) : w.Follows Frame.SameRun r.2 := by
  rw [← h.run_eq]
  exact keeps_recovery_anyTime.follows

theorem follows_afterAttempt (site : Site) (v : World) :
    v.Follows Frame.SameRun (afterAttempt site v) := by
  have recorded : Keeps (default : App) anyTime Eq (recordDone site) (closeStep site.step v) :=
    keeps_recordDone
  exact (follows_closeStep site.step v).trans recorded.follows.of_eq

theorem StepRuns.follows {c : Course} (h : StepRuns app site here c)
    (hp : passesOver here site = false) : here.Follows Frame.SameRun c.ending.2 := by
  rw [← h.run_eq hp]
  exact (keeps_runStep (fun _ _ => trivial) (fun _ => trivial) fun _ _ => trivial).follows

/-- Every step has a course where the goal gets to it. -/
theorem exists_stepRuns (app : App) (site : Site) (here : World) :
    ∃ c, StepRuns app site here c := by
  obtain ⟨before, hb⟩ := Announced.exists_of app (stepOccasion site .before) (stepValues site)
    (enterStep site.step here)
  rcases he : (announce app (runGoal app) (stepOccasion site .before) (stepValues site)).run
    (enterStep site.step here) with ⟨e | _, u⟩
  · exact ⟨_, .refused (he ▸ hb)⟩
  obtain ⟨turns, ht⟩ := exists_turns app site {}
    (u.record (.stepStarted site.goal.name site.step.index))
  rcases hr : (recovery app (runGoal app) site {}).run
    (u.record (.stepStarted site.goal.name site.step.index)) with ⟨e | control, v⟩
  · exact ⟨_, .failed (he ▸ hb) (hr ▸ ht)⟩
  obtain ⟨after, ha⟩ := Announced.exists_of app (stepOccasion site .after) (stepValues site)
    (afterAttempt site v)
  rcases hx : (announce app (runGoal app) (stepOccasion site .after) (stepValues site)).run
    (afterAttempt site v) with ⟨e | _, x⟩
  · exact ⟨_, .disturbed (he ▸ hb) (hr ▸ ht) (hx ▸ ha)⟩
  · exact ⟨_, .finished (he ▸ hb) (hr ▸ ht) (hx ▸ ha)⟩

end

/-- A step that the loop of a goal gets to. Without a course it is passed over. -/
structure Visit where
  step : Step
  here : World
  course : Option Course

/-- The step has failed, and its failure comes out of the error events of its goal as this one,
which nothing marks as handled. -/
def Visit.Ruins (app : App) (goal : Goal) (x : Visit) (e' : EngineError) : Prop :=
  ∃ c e u v, x.course = some c ∧ c.ending = (.error e, u) ∧
    (goalErrorEvents app (runGoal app) goal e).run u = (.error e', v) ∧
    e'.kind ≠ .alreadyHandled

/-- The loop over a goal's steps: each is visited where the one before it has ended, up to the first
that stops the goal or fails. A failure goes to the error events of the goal. -/
inductive Loop (app : App) (goal : Goal) :
    List Step → World → List Visit → Ending Control → Prop where
  | done {w : World} : Loop app goal [] w [] (.ok .proceed, w)
  | passed {step : Step} {rest : List Step} {w : World} {visits : List Visit} {r : Ending Control}
    (passes : passesOver w ⟨goal, step⟩ = true) (others : Loop app goal rest w visits r) :
    Loop app goal (step :: rest) w (⟨step, w, none⟩ :: visits) r
  | gone {step : Step} {rest : List Step} {w v : World} {c : Course} {visits : List Visit}
    {r : Ending Control} (passes : passesOver w ⟨goal, step⟩ = false)
    (runs : StepRuns app ⟨goal, step⟩ w c) (ends : c.ending = (.ok .proceed, v))
    (others : Loop app goal rest v visits r) :
    Loop app goal (step :: rest) w (⟨step, w, some c⟩ :: visits) r
  | stopped {step : Step} {rest : List Step} {w v : World} {c : Course} {control : Control}
    (passes : passesOver w ⟨goal, step⟩ = false) (runs : StepRuns app ⟨goal, step⟩ w c)
    (ends : c.ending = (.ok control, v)) (stops : control.isProceed = false) :
    Loop app goal (step :: rest) w [⟨step, w, some c⟩] (.ok control, v)
  | failed {step : Step} {rest : List Step} {w v : World} {c : Course} {e : EngineError}
    (passes : passesOver w ⟨goal, step⟩ = false) (runs : StepRuns app ⟨goal, step⟩ w c)
    (ends : c.ending = (.error e, v)) :
    Loop app goal (step :: rest) w [⟨step, w, some c⟩]
      ((afterStep app (runGoal app) goal (.error e)).run v)

section

variable {goal : Goal} {step : Step} {rest steps : List Step} {visits : List Visit}
  {r : Ending Control}

theorem run_runStep_of_passes (hp : passesOver w ⟨goal, step⟩ = true) :
    (runStep app (runGoal app) ⟨goal, step⟩).run w = (.ok .proceed, w) := by
  rw [runStep, run_get_bind, if_pos hp]
  rfl

/-- An error that a step ends with goes to the error events of its goal. -/
theorem run_afterStep (app : App) (goal : Goal) (e : EngineError) (w : World) :
    (afterStep app (runGoal app) goal (.error e)).run w =
      match (goalErrorEvents app (runGoal app) goal e).run w with
      | (.ok _, v) => (.ok (.exit 1), v)
      | (.error e', v) =>
        if e'.kind = .alreadyHandled then (.ok (.exit 1), v) else (.error e', v) := by
  rw [afterStep, run_bind, run_outcome]
  dsimp only
  rcases (goalErrorEvents app (runGoal app) goal e).run w with ⟨e' | _, v⟩
  · dsimp only
    by_cases hk : e'.kind = .alreadyHandled
    · simp only [hk, BEq.rfl, ↓reduceIte]
      rfl
    · simp only [hk, beq_eq_false_iff_ne.mpr hk, Bool.false_eq_true, ↓reduceIte]
      rfl
  · rfl

/-- It ends the loop of its goal as well, one way or the other. -/
theorem afterStep_ne_proceed (app : App) (goal : Goal) (e : EngineError) (w : World) :
    ((afterStep app (runGoal app) goal (.error e)).run w).1 ≠ .ok .proceed := by
  rw [run_afterStep]
  rcases (goalErrorEvents app (runGoal app) goal e).run w with ⟨e' | _, v⟩
  · dsimp only
    split <;> nofun
  · nofun

theorem run_runSteps_of_error {e : EngineError}
    (h : (runStep app (runGoal app) ⟨goal, step⟩).run w = (.error e, v)) :
    (runSteps app (runGoal app) goal (step :: rest)).run w =
      (afterStep app (runGoal app) goal (.error e)).run v := by
  rw [runSteps, run_bind, run_outcome, h]
  dsimp only
  have stops := afterStep_ne_proceed app goal e v
  rcases ha : (afterStep app (runGoal app) goal (.error e)).run v with ⟨e' | control, x⟩
  · exact run_bind_of_error ha
  · rw [ha] at stops
    refine (run_bind_of_ok ha).trans ?_
    cases control with
    | proceed => exact absurd rfl stops
    | exit levels => rfl
    | returned value => rfl

theorem Loop.run_eq (h : Loop app goal steps w visits r) :
    (runSteps app (runGoal app) goal steps).run w = r := by
  induction h with
  | done => rfl
  | passed passes _ ih => exact (run_runSteps_of_proceed (run_runStep_of_passes passes)).trans ih
  | gone passes runs ends _ ih =>
    exact (run_runSteps_of_proceed ((runs.run_eq passes).trans ends)).trans ih
  | stopped passes runs ends stops =>
    exact run_runSteps_of_stop ((runs.run_eq passes).trans ends) stops
  | failed passes runs ends => exact run_runSteps_of_error ((runs.run_eq passes).trans ends)

theorem Loop.follows (h : Loop app goal steps w visits r) : w.Follows Frame.SameRun r.2 := by
  rw [← h.run_eq]
  exact (keeps_runSteps (fun _ _ => trivial) (fun _ => trivial) (fun _ _ => trivial) steps).follows

theorem Visit.not_ruins_of_none {e : EngineError} :
    ¬ Visit.Ruins app goal ⟨step, w, none⟩ e := by
  rintro ⟨c, e, u, v, hc, -⟩
  cases hc

theorem Visit.not_ruins_of_ok {c : Course} {control : Control} {e : EngineError}
    (h : c.ending = (.ok control, v)) : ¬ Visit.Ruins app goal ⟨step, w, some c⟩ e := by
  rintro ⟨c, e, u, v, hc, he, -⟩
  cases hc
  cases h.symm.trans he

/-- A loop fails with what has come of the failure of one of its steps, and else not at all. -/
theorem Loop.error_iff (h : Loop app goal steps w visits r) {e' : EngineError} :
    r.1 = .error e' ↔ ∃ x ∈ visits, x.Ruins app goal e' := by
  induction h with
  | done => exact ⟨nofun, fun ⟨x, hx, _⟩ => absurd hx List.not_mem_nil⟩
  | passed _ _ ih =>
    simp only [ih, List.mem_cons, or_and_right, exists_or, exists_eq_left,
      Visit.not_ruins_of_none, false_or]
  | gone _ _ ends _ ih =>
    simp only [ih, List.mem_cons, or_and_right, exists_or, exists_eq_left,
      Visit.not_ruins_of_ok ends, false_or]
  | stopped _ _ ends _ =>
    refine ⟨nofun, ?_⟩
    rintro ⟨x, hx, hr⟩
    obtain rfl := List.mem_singleton.mp hx
    exact absurd hr (Visit.not_ruins_of_ok ends)
  | @failed step rest w v c e _ _ ends =>
    rw [run_afterStep]
    constructor
    · intro hr
      refine ⟨_, List.mem_singleton_self _, c, e, v, ?_⟩
      rcases hg : (goalErrorEvents app (runGoal app) goal e).run v with ⟨x | _, u⟩
      · rw [hg] at hr
        dsimp only at hr
        split at hr
        · cases hr
        · rename_i hk
          cases hr
          exact ⟨u, rfl, ends, rfl, hk⟩
      · rw [hg] at hr
        cases hr
    · rintro ⟨x, hx, c', e₀, u, u', hc, he, hg, hk⟩
      obtain rfl := List.mem_singleton.mp hx
      cases hc
      cases ends.symm.trans he
      rw [hg]
      simp only [hk, ↓reduceIte]

/-- Each step that is visited is passed over, or has the course that is noted for it. -/
inductive Visit.Genuine (app : App) (goal : Goal) : Visit → Prop where
  | passed {step : Step} {here : World} (passes : passesOver here ⟨goal, step⟩ = true) :
    Genuine app goal ⟨step, here, none⟩
  | ran {step : Step} {here : World} {c : Course} (passes : passesOver here ⟨goal, step⟩ = false)
    (runs : StepRuns app ⟨goal, step⟩ here c) : Genuine app goal ⟨step, here, some c⟩

/-- Each visit is in the run of the goal, and comes to what its step comes to there. -/
theorem Loop.visited (h : Loop app goal steps w visits r) :
    ∀ x ∈ visits, w.Follows Frame.SameRun x.here ∧ x.Genuine app goal := by
  induction h with
  | done => exact fun x hx => absurd hx List.not_mem_nil
  | @passed step rest w visits r passes _ ih =>
    intro x hx
    rcases List.mem_cons.mp hx with rfl | hx
    · exact ⟨.refl w, .passed passes⟩
    · exact ih x hx
  | @gone step rest w v c visits r passes runs ends _ ih =>
    intro x hx
    rcases List.mem_cons.mp hx with rfl | hx
    · exact ⟨.refl w, .ran passes runs⟩
    · have follows := runs.follows passes
      rw [ends] at follows
      obtain ⟨later, genuine⟩ := ih x hx
      exact ⟨follows.trans later, genuine⟩
  | @stopped step rest w v c control passes runs _ _ =>
    intro x hx
    obtain rfl := List.mem_singleton.mp hx
    exact ⟨.refl w, .ran passes runs⟩
  | @failed step rest w v c e passes runs _ =>
    intro x hx
    obtain rfl := List.mem_singleton.mp hx
    exact ⟨.refl w, .ran passes runs⟩

theorem Visit.Genuine.runs {x : Visit} {c : Course} (h : x.Genuine app goal)
    (hc : x.course = some c) : StepRuns app ⟨goal, x.step⟩ x.here c := by
  cases h with
  | passed passes => cases hc
  | ran passes runs =>
    cases hc
    exact runs

theorem Visit.Genuine.course_eq_none_iff {x : Visit} (h : x.Genuine app goal) :
    x.course = none ↔ passesOver x.here ⟨goal, x.step⟩ = true := by
  cases h with
  | passed passes => exact ⟨fun _ => passes, fun _ => rfl⟩
  | ran passes runs =>
    refine ⟨fun hc => ?_, fun hp => ?_⟩
    · cases hc
    · cases passes.symm.trans hp

/-- The steps that are visited are the first ones, in order. -/
theorem Loop.isPrefix (h : Loop app goal steps w visits r) :
    visits.map Visit.step <+: steps := by
  induction h with
  | done => exact List.prefix_rfl
  | passed _ _ ih => exact List.cons_prefix_cons.mpr ⟨rfl, ih⟩
  | gone _ _ _ _ ih => exact List.cons_prefix_cons.mpr ⟨rfl, ih⟩
  | @stopped step rest w v c control _ _ _ _ => exact ⟨rest, rfl⟩
  | @failed step rest w v c e _ _ _ => exact ⟨rest, rfl⟩

/-- Every loop has its visits. -/
theorem exists_loop (app : App) (goal : Goal) (steps : List Step) (w : World) :
    ∃ visits r, Loop app goal steps w visits r := by
  induction steps generalizing w with
  | nil => exact ⟨[], _, .done⟩
  | cons step rest ih =>
    cases hp : passesOver w ⟨goal, step⟩ with
    | true =>
      obtain ⟨visits, r, h⟩ := ih w
      exact ⟨_, _, .passed hp h⟩
    | false =>
      obtain ⟨c, hc⟩ := exists_stepRuns app ⟨goal, step⟩ w
      rcases he : c.ending with ⟨e | control, v⟩
      · exact ⟨_, _, .failed hp hc he⟩
      · cases control with
        | proceed =>
          obtain ⟨visits, r, h⟩ := ih v
          exact ⟨_, _, .gone hp hc he h⟩
        | exit levels => exact ⟨_, _, .stopped hp hc he rfl⟩
        | returned value => exact ⟨_, _, .stopped hp hc he rfl⟩

end

structure GoalCourse where
  before : List Firing
  -- What the Before events have come to.
  begun : Ending Unit
  visits : List Visit
  -- What the loop over the steps has come to; absent when it is not begun.
  looped : Option (Ending Control)
  -- Absent when the After events are not announced.
  after : Option (List Firing)
  ending : Ending Control

/-- The course of a goal that has room: its steps stand between its events. -/
inductive GoalRuns (app : App) (inv : Invocation) (w : World) : GoalCourse → Prop where
  | refused {before : List Firing} {e : EngineError} {v : World}
    (events : Announced app (goalOccasion inv.goal .before) (goalValues inv.goal)
      (enterGoal inv w) before (.error e, v)) :
    GoalRuns app inv w
      ⟨before, (.error e, v), [], none, none, (.error e, leaveGoal inv.goal w v)⟩
  | failed {before : List Firing} {visits : List Visit} {e : EngineError} {u v : World}
    (events : Announced app (goalOccasion inv.goal .before) (goalValues inv.goal)
      (enterGoal inv w) before (.ok (), u))
    (steps : Loop app inv.goal inv.goal.steps u visits (.error e, v)) :
    GoalRuns app inv w
      ⟨before, (.ok (), u), visits, some (.error e, v), none,
        (.error e, leaveGoal inv.goal w v)⟩
  | disturbed {before after : List Firing} {visits : List Visit} {control : Control}
    {e : EngineError} {u v x : World}
    (events : Announced app (goalOccasion inv.goal .before) (goalValues inv.goal)
      (enterGoal inv w) before (.ok (), u))
    (steps : Loop app inv.goal inv.goal.steps u visits (.ok control, v))
    (ends : Announced app (goalOccasion inv.goal .after) (goalValues inv.goal) v after
      (.error e, x)) :
    GoalRuns app inv w
      ⟨before, (.ok (), u), visits, some (.ok control, v), some after,
        (.error e, leaveGoal inv.goal w x)⟩
  | finished {before after : List Firing} {visits : List Visit} {control : Control}
    {u v x : World}
    (events : Announced app (goalOccasion inv.goal .before) (goalValues inv.goal)
      (enterGoal inv w) before (.ok (), u))
    (steps : Loop app inv.goal inv.goal.steps u visits (.ok control, v))
    (ends : Announced app (goalOccasion inv.goal .after) (goalValues inv.goal) v after
      (.ok (), x)) :
    GoalRuns app inv w
      ⟨before, (.ok (), u), visits, some (.ok control, v), some after,
        (.ok control.unwind, leaveGoal inv.goal w x)⟩

section

variable {inv : Invocation}

theorem run_runGoal_of_room (hw : w.engine.stack.length < app.config.maxCallDepth)
    {r : Ending Control} (h : (goalBody app (runGoal app) inv.goal).run (enterGoal inv w) = r) :
    (runGoal app inv).run w = (r.1, leaveGoal inv.goal w r.2) :=
  (perform_goal app inv w).trans (run_goalRun_of_body hw h)

/-- A goal that has room comes to what its course says. -/
theorem GoalRuns.run_eq {c : GoalCourse} (h : GoalRuns app inv w c)
    (hw : w.engine.stack.length < app.config.maxCallDepth) :
    (runGoal app inv).run w = c.ending := by
  cases h with
  | refused events => exact run_runGoal_of_room hw (run_bind_of_error events.run_eq)
  | failed events steps =>
    exact run_runGoal_of_room hw
      ((run_bind_of_ok events.run_eq).trans (run_bind_of_error steps.run_eq))
  | @disturbed before after visits control e u v x events steps ends =>
    have body : (goalBody app (runGoal app) inv.goal).run (enterGoal inv w) = (.error e, x) :=
      (run_bind_of_ok events.run_eq).trans
        ((run_bind_of_ok steps.run_eq).trans (run_bind_of_error ends.run_eq))
    exact run_runGoal_of_room hw body
  | @finished before after visits control u v x events steps ends =>
    have body : (goalBody app (runGoal app) inv.goal).run (enterGoal inv w) =
        (.ok control.unwind, x) :=
      (run_bind_of_ok events.run_eq).trans
        ((run_bind_of_ok steps.run_eq).trans (run_bind_of_ok ends.run_eq))
    exact run_runGoal_of_room hw body

/-- Without room for it nothing of a goal is run. -/
theorem run_runGoal_of_full (hw : app.config.maxCallDepth ≤ w.engine.stack.length) :
    (runGoal app inv).run w =
      (.error (.stackOverflow app.config.maxCallDepth w.engine.stack.trace), w) := by
  refine (perform_goal app inv w).trans ?_
  rw [goalRun, run_get_bind]
  simp only [hw, ↓reduceIte]
  rfl

/-- Every goal has a course. -/
theorem exists_goalRuns (app : App) (inv : Invocation) (w : World) :
    ∃ c, GoalRuns app inv w c := by
  obtain ⟨before, hb⟩ := Announced.exists_of app (goalOccasion inv.goal .before)
    (goalValues inv.goal) (enterGoal inv w)
  rcases he : (announce app (runGoal app) (goalOccasion inv.goal .before)
    (goalValues inv.goal)).run (enterGoal inv w) with ⟨e | _, u⟩
  · exact ⟨_, .refused (he ▸ hb)⟩
  obtain ⟨visits, ⟨e | control, v⟩, hl⟩ := exists_loop app inv.goal inv.goal.steps u
  · exact ⟨_, .failed (he ▸ hb) hl⟩
  obtain ⟨after, ha⟩ := Announced.exists_of app (goalOccasion inv.goal .after)
    (goalValues inv.goal) v
  rcases hx : (announce app (runGoal app) (goalOccasion inv.goal .after)
    (goalValues inv.goal)).run v with ⟨e | _, x⟩
  · exact ⟨_, .disturbed (he ▸ hb) hl (hx ▸ ha)⟩
  · exact ⟨_, .finished (he ▸ hb) hl (hx ▸ ha)⟩

end

end Run

end GoalScript
