import GoalScript.Proofs.Passage

namespace GoalScript.Run

/-- In `a` the step's module is called, and its function ends so, in `b`. -/
def ModuleEnds (app : App) (site : Site) (a : World) (result : Except Halt Output) (b : World) :
    Prop :=
  ∃ m, a.engine.registry.registry.get site.step.moduleType = .ok m ∧
    m.hasFunction site.step.instruction.function ∧
    (callModule m site (limitOf app site.step)).run
      (a.record (.attempted site.goal.name site.step.index)) = (.ok result, b)

/-- A call that starts in `c` binds its parameters, calls back for them and begins the goal in
`w`. -/
def Enters (app : App) (call : GoalCall) (c : World) (inv : Invocation) (w : World) : Prop :=
  ∃ goal parameters u, app.library.get? call.name = some goal ∧
    resolveParameters c.store call.parameters = .ok parameters ∧
    (bind (mergeBound [] parameters)).run c = (.ok (), u) ∧
    (fire app).run u = (.ok (), w) ∧
    inv = { goal, locals := mergeBound [] parameters }

/-- The attempt in `a` comes to run a goal: its step calls it, or runs out of time and falls back
on it. -/
inductive Calls (app : App) (site : Site) (a : World) (inv : Invocation) (w : World) : Prop where
  | output {call : GoalCall} {b c : World} (ends : ModuleEnds app site a (.ok (.callGoal call)) b)
    (fires : (fire app).run (b.record (.succeeded site.goal.name site.step.index)) = (.ok (), c))
    (enters : Enters app call c inv w)
  | fallback {call : GoalCall} {b c : World} (ends : ModuleEnds app site a (.error .timedOut) b)
    (falls : site.step.cancellation.bind Cancellation.goalToCall = some call)
    (fires : (fire app).run b = (.ok (), c)) (enters : Enters app call c inv w)

section

variable {app : App} {site : Site} {call : GoalCall} {inv : Invocation} {a b c v w : World}

/-- An attempt comes to what follows from the end of its function. -/
theorem run_attempt {result : Except Halt Output} (h : ModuleEnds app site a result b) :
    (attempt app (runGoal app) site).run a = (conclude app (runGoal app) site result).run b := by
  obtain ⟨m, hm, hf, hc⟩ := h
  have found : (moduleOf site.step).run (a.record (.attempted site.goal.name site.step.index)) =
      (.ok (some m), a.record (.attempted site.goal.name site.step.index)) := by
    have hm : (a.record (.attempted site.goal.name site.step.index)).engine.registry.registry.get
      site.step.moduleType = .ok m := hm
    rw [moduleOf, run_get_bind, hm]
    rfl
  rw [attempt, note, run_bind_of_ok (run_update _ a), run_bind_of_ok found]
  simp only [hf, Bool.not_true, Bool.false_eq_true, ↓reduceIte]
  exact run_bind_of_ok hc

theorem run_callGoal (h : Enters app call c inv w) :
    (callGoal app (runGoal app) call []).run c = (runGoal app inv).run w := by
  obtain ⟨goal, parameters, u, hg, hp, hb, hf, rfl⟩ := h
  rw [callGoal, enter, run_bind_of_ok (run_findGoal hg), run_get_bind, hp]
  exact (run_bind_of_ok hb).trans (run_bind_of_ok hf)

/-- A step that calls an exit. -/
theorem run_attempt_of_exit {levels : Nat} (ends : ModuleEnds app site a (.ok (.exit levels)) b)
    (fires : (fire app).run (b.record (.succeeded site.goal.name site.step.index)) = (.ok (), c)) :
    (attempt app (runGoal app) site).run a = (.ok (.exit (max levels 1)), c) := by
  rw [run_attempt ends, conclude, note, run_bind_of_ok (run_update _ b), run_bind_of_ok fires]
  rfl

/-- The goal that a step comes to run hands it an exit, and else nothing that stops it. -/
theorem Calls.run_attempt (h : Calls app site a inv w) {control : Control}
    (hr : (runGoal app inv).run w = (.ok control, v)) (hc : ∀ value, control ≠ .returned value) :
    (attempt app (runGoal app) site).run a = (.ok control, v) := by
  cases h with
  | output ends fires enters =>
    have called := (run_callGoal enters).trans hr
    rw [Run.run_attempt ends, conclude, note, run_bind_of_ok (run_update _ _),
      run_bind_of_ok fires, applyOutput, run_bind_of_ok called]
    cases control with
    | proceed => rfl
    | exit levels => rfl
    | returned value => exact absurd rfl (hc value)
  | fallback ends falls fires enters =>
    have called := (run_callGoal enters).trans hr
    rw [Run.run_attempt ends, conclude, run_bind_of_ok fires, fallBack, falls]
    dsimp only
    rw [run_bind_of_ok called]
    cases control with
    | proceed => rfl
    | exit levels => rfl
    | returned value => exact absurd rfl (hc value)

end

/-- A goal at one of its steps: how and where it was begun, and where the step is begun. -/
structure Standing where
  inv : Invocation
  entry : World
  passed : List Step
  step : Step
  rest : List Step
  here : World

namespace Standing

def site (s : Standing) : Site := ⟨s.inv.goal, s.step⟩

def runsTo (app : App) (s : Standing) : Ending Control :=
  (runStep app (runGoal app) s.site).run s.here

structure Arrives (app : App) (s : Standing) : Prop where
  room : s.entry.engine.stack.length < app.config.maxCallDepth
  steps : s.inv.goal.steps = s.passed ++ s.step :: s.rest
  passes : ∃ u,
    (goalEvents app (runGoal app) s.inv.goal .before).run (enterGoal s.inv s.entry) = (.ok (), u) ∧
    (runSteps app (runGoal app) s.inv.goal s.passed).run u = (.ok .proceed, s.here)

/-- The step is not passed over and is attempted in `a`, perhaps not for the first time. -/
structure Attempts (app : App) (s : Standing) (a : World) : Prop where
  runs : passesOver s.here s.site = false
  tries : ∃ u effort,
    (stepEvents app (runGoal app) s.site .before).run (enterStep s.step s.here) = (.ok (), u) ∧
    Tries app s.site {} (u.record (.stepStarted s.inv.goal.name s.step.index)) effort a

/-- After the attempt in `a` no event goal fails: none that the step's end calls, and none that the
goal's end calls if the step stops it. -/
def Undisturbed (app : App) (s : Standing) (a : World) : Prop :=
  ∀ control v, (attempt app (runGoal app) s.site).run a = (.ok control, v) →
    ∃ x, (stepEvents app (runGoal app) s.site .after).run (afterAttempt s.site v) = (.ok (), x) ∧
      (control.isProceed = false → ∃ y,
        (goalEvents app (runGoal app) s.inv.goal .after).run
          (leaveStep s.here ((runDeferred app (runGoal app)).run x).2) = (.ok (), y))

/-- The step's exit stops the goal: what follows the step are the goal's After events and its
end. -/
structure Stops (app : App) (s : Standing) (levels : Nat) : Prop where
  step : (s.runsTo app).1 = .ok (.exit levels)
  steps : (runSteps app (runGoal app) s.inv.goal (s.step :: s.rest)).run s.here = s.runsTo app
  goal : ∃ y,
    (goalEvents app (runGoal app) s.inv.goal .after).run (s.runsTo app).2 = (.ok (), y) ∧
    (runGoal app s.inv).run s.entry =
      (.ok (Control.exit levels).unwind, leaveGoal s.inv.goal s.entry y)

structure GoesOn (app : App) (s : Standing) : Prop where
  step : (s.runsTo app).1 = .ok .proceed
  steps : (runSteps app (runGoal app) s.inv.goal (s.step :: s.rest)).run s.here =
    (runSteps app (runGoal app) s.inv.goal s.rest).run (s.runsTo app).2

variable {app : App} {s : Standing} {control : Control} {levels : Nat} {a v : World}

/-- The step comes to what its attempt comes to. -/
theorem Attempts.runsTo_eq {x : World} (h : s.Attempts app a)
    (ha : (attempt app (runGoal app) s.site).run a = (.ok control, v))
    (hx : (stepEvents app (runGoal app) s.site .after).run (afterAttempt s.site v) = (.ok (), x)) :
    s.runsTo app =
      (.ok control, leaveStep s.here ((runDeferred app (runGoal app)).run x).2) := by
  obtain ⟨u, effort, hb, ht⟩ := h.tries
  exact run_runStep h.runs (run_performStep hb ht ha hx)

/-- An exit that the attempt comes to stops the goal. -/
theorem Attempts.stops (h : s.Attempts app a) (hs : s.Arrives app) (hc : s.Undisturbed app a)
    (ha : (attempt app (runGoal app) s.site).run a = (.ok (.exit levels), v)) :
    s.Stops app levels := by
  obtain ⟨x, hx, hy⟩ := hc _ v ha
  obtain ⟨y, hy⟩ := hy rfl
  obtain ⟨u, hb, hp⟩ := hs.passes
  have hr := h.runsTo_eq ha hx
  have steps : (runSteps app (runGoal app) s.inv.goal (s.step :: s.rest)).run s.here =
      s.runsTo app := (run_runSteps_of_stop hr rfl).trans hr.symm
  refine ⟨congrArg Prod.fst hr, steps, y, hr ▸ hy, ?_⟩
  have all : (runSteps app (runGoal app) s.inv.goal s.inv.goal.steps).run u = s.runsTo app := by
    rw [hs.steps, run_runSteps_append s.passed hp, steps]
  exact (perform_goal app s.inv s.entry).trans (run_goalRun hs.room hb (all.trans hr) hy)

/-- The goal takes one level off the exit that stops it. -/
theorem Stops.run_of_lt (h : s.Stops app levels) (hl : 1 < levels) : ∃ v,
    (runGoal app s.inv).run s.entry = (.ok (.exit (levels - 1)), v) := by
  obtain ⟨y, -, hr⟩ := h.goal
  rw [Control.unwind, if_pos hl] at hr
  exact ⟨_, hr⟩

/-- An exit of one level ends with the goal that it stops. -/
theorem Stops.run_of_one (h : s.Stops app 1) : ∃ v,
    (runGoal app s.inv).run s.entry = (.ok .proceed, v) := by
  obtain ⟨y, -, hr⟩ := h.goal
  exact ⟨_, hr⟩

/-- An attempt that goes on lets the goal go on. -/
theorem Attempts.goesOn (h : s.Attempts app a) (hc : s.Undisturbed app a)
    (ha : (attempt app (runGoal app) s.site).run a = (.ok .proceed, v)) : s.GoesOn app := by
  obtain ⟨x, hx, -⟩ := hc _ v ha
  have hr := h.runsTo_eq ha hx
  refine ⟨congrArg Prod.fst hr, ?_⟩
  rw [hr]
  exact run_runSteps_of_proceed hr

theorem undisturbed_of_nil (h : app.library.events = []) : s.Undisturbed app a := by
  refine fun control v _ => ⟨_, run_announce_of_nil _ h, fun _ => ⟨_, run_announce_of_nil _ h⟩⟩

end Standing

/-- Goals that call one another, outermost first, up to a step that calls for an exit of so many
levels, of which there is at least one. Further out than the exit leads, events do not matter. -/
inductive Chain (app : App) (levels : Nat) : List Standing → Prop where
  | exits {s : Standing} {a b c : World} {called : Nat} (arrives : s.Arrives app)
    (attempts : s.Attempts app a) (ends : ModuleEnds app s.site a (.ok (.exit called)) b)
    (fires : (fire app).run (b.record (.succeeded s.inv.goal.name s.step.index)) = (.ok (), c))
    (clamped : max called 1 = levels) (calm : s.Undisturbed app a) : Chain app levels [s]
  | calls {s t : Standing} {inner : List Standing} {a : World} (arrives : s.Arrives app)
    (attempts : s.Attempts app a) (calls : Calls app s.site a t.inv t.entry)
    (calm : (t :: inner).length ≤ levels → s.Undisturbed app a)
    (rest : Chain app levels (t :: inner)) : Chain app levels (s :: t :: inner)

/-- What the innermost goals hand on: each that stops takes a level off the exit. -/
theorem Chain.innermost {app : App} {levels : Nat} {goals : List Standing}
    (h : Chain app levels goals) {s : Standing} {inner : List Standing} (hs : goals = s :: inner) :
    (inner.length < levels → s.Stops app (levels - inner.length)) ∧
    (inner.length = levels → s.GoesOn app) := by
  induction h generalizing s inner with
  | exits arrives attempts ends fires clamped calm =>
    cases hs
    have ha := run_attempt_of_exit ends fires
    rw [clamped] at ha
    refine ⟨fun _ => attempts.stops arrives calm ha, fun h => ?_⟩
    rw [List.length_nil] at h
    omega
  | @calls s t inner' a arrives attempts calls calm rest ih =>
    cases hs
    have inside := (ih rfl).1
    rw [List.length_cons]
    refine ⟨fun hlt => ?_, fun heq => ?_⟩
    · obtain ⟨v, hr⟩ := (inside (Nat.lt_of_succ_lt hlt)).run_of_lt (by omega)
      rw [Nat.sub_sub] at hr
      exact attempts.stops arrives (calm (Nat.le_of_lt hlt)) (calls.run_attempt hr nofun)
    · have one : levels - inner'.length = 1 := by omega
      obtain ⟨v, hr⟩ := (one ▸ inside (heq ▸ Nat.lt_succ_self _)).run_of_one
      exact attempts.goesOn (calm (Nat.le_of_eq heq)) (calls.run_attempt hr nofun)

/-- Further inside a chain is a chain. -/
theorem Chain.suffix {app : App} {levels : Nat} {outer inner : List Standing} {s : Standing}
    (h : Chain app levels (outer ++ s :: inner)) : Chain app levels (s :: inner) := by
  induction outer with
  | nil => exact h
  | cons t outer ih =>
    cases outer with
    | nil => cases h with | calls _ _ _ _ rest => exact rest
    | cons t' outer => cases h with | calls _ _ _ _ rest => exact ih rest

/-- An exit of so many levels stops as many goals, or all that there are, and none of them runs a
later step. The next goal goes on after its call; if there is none, the outermost goal comes to an
exit of the levels that are left, if any. -/
theorem exit_unwinds {app : App} {levels : Nat} {goals : List Standing}
    (h : Chain app levels goals) :
    (∀ outer s inner, goals = outer ++ s :: inner →
      (inner.length < levels → s.Stops app (levels - inner.length)) ∧
      (inner.length = levels → s.GoesOn app)) ∧
    (∀ s inner, goals = s :: inner →
      (goals.length < levels →
        ((runGoal app s.inv).run s.entry).1 = .ok (.exit (levels - goals.length))) ∧
      (goals.length = levels → ((runGoal app s.inv).run s.entry).1 = .ok .proceed)) := by
  refine ⟨?_, ?_⟩
  · rintro outer s inner rfl
    exact h.suffix.innermost rfl
  · rintro s inner rfl
    have stops := (h.innermost rfl).1
    rw [List.length_cons]
    refine ⟨fun hlt => ?_, fun heq => ?_⟩
    · obtain ⟨v, hr⟩ := (stops (Nat.lt_of_succ_lt hlt)).run_of_lt (by omega)
      rw [Nat.sub_sub] at hr
      exact congrArg Prod.fst hr
    · have one : levels - inner.length = 1 := by omega
      obtain ⟨v, hr⟩ := (one ▸ stops (heq ▸ Nat.lt_succ_self _)).run_of_one
      exact congrArg Prod.fst hr

namespace Visit

def visitor : Module where
  name := "visit"
  functions := ["go"]
  call _ := do
    match (← read).step.instruction.returnVariable with
    | some _ => return .callGoal { name := "Inner" }
    | none => return .exit 3

def call : Step :=
  { moduleType := "visit", instruction := { function := "go", returnVariable := some "x" } }

def exit : Step := { moduleType := "visit", instruction := { function := "go" } }

def innerGoal : Goal := { name := "Inner", steps := [exit, call] }

def app : App := ⟨{ goals := [(Text.lowercase "Inner", innerGoal)] }, {}⟩

def start : World :=
  ⟨.start 0 ⟨{ modules := [(Text.lowercase "visit", visitor)] }, 0⟩ false, {}⟩

def called (goal : Goal) (step : Step) (here : World) : World :=
  (((callModule visitor ⟨goal, step⟩ (limitOf app step)).run
    (((enterStep step here).record (.stepStarted goal.name step.index)).record
      (.attempted goal.name step.index))).2).record (.succeeded goal.name step.index)

def outer : Standing :=
  let goal : Goal := { name := "Outer", steps := [call, exit] }
  { inv := { goal }, entry := start, passed := [], step := call, rest := [exit]
    here := enterGoal { goal } start }

def inner : Standing :=
  let entry := called outer.inv.goal call outer.here
  { inv := { goal := innerGoal }, entry, passed := [], step := exit, rest := [call]
    here := enterGoal { goal := innerGoal } entry }

theorem get_visitor : start.engine.registry.registry.get "visit" = .ok visitor := by
  simp [Registry.get, Registry.isDisabled, Registry.target, start, Engine.start, Table.get?]

theorem get_goal : app.library.get? "Inner" = some innerGoal := by
  simp [Library.get?, app, Table.get?]

end Visit

open Visit in
/-- Two goals and an exit of three levels. -/
theorem exit_unwinds_visit : Chain app 3 [outer, inner] ∧
    (outer.Stops app 2 ∧ inner.Stops app 3) ∧
    ((runGoal app outer.inv).run outer.entry).1 = .ok (.exit 1) := by
  have h : Chain app 3 [outer, inner] :=
    .calls
      { room := by decide, steps := rfl, passes := ⟨_, run_announce_of_nil _ rfl, rfl⟩ }
      { runs := rfl, tries := ⟨_, {}, run_announce_of_nil _ rfl, .here⟩ }
      (.output ⟨visitor, get_visitor, by decide, rfl⟩ rfl
        ⟨innerGoal, [], _, get_goal, rfl, rfl, rfl, rfl⟩)
      (fun _ => Standing.undisturbed_of_nil rfl)
      (.exits
        { room := by decide, steps := rfl, passes := ⟨_, run_announce_of_nil _ rfl, rfl⟩ }
        { runs := rfl, tries := ⟨_, {}, run_announce_of_nil _ rfl, .here⟩ }
        ⟨visitor, get_visitor, by decide, rfl⟩ rfl rfl (Standing.undisturbed_of_nil rfl))
  have hu := exit_unwinds h
  exact ⟨h, ⟨(hu.1 [] outer [inner] rfl).1 (by decide), (hu.1 [outer] inner [] rfl).1 (by decide)⟩,
    (hu.2 outer [inner] rfl).1 (by decide)⟩

end GoalScript.Run
