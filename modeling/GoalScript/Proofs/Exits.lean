import GoalScript.Proofs.Steadiness
import GoalScript.Proofs.Unwinding

namespace GoalScript.Run

/-- The attempt in `a` fails, and the handler for the failure, which allows no retries, comes to
run a goal. No answer has been found for the failure before. -/
inductive Handles (app : App) (site : Site) (a : World) (inv : Invocation) (w : World) : Prop where
  | mk {e : EngineError} {h : ErrorHandler} {call : GoalCall} {b c : World}
    (fails : (attempt app (runGoal app) site).run a = (.error e, b))
    (unsettled : e.kind.isFinal = false)
    (unanswered : (intervene app e).run b = (.ok false, c))
    (selected : site.step.handlerFor? e = some h) (once : h.retry = none)
    (calls : h.goalToCall = some call)
    (enters : (prepare app call (errorParameters e) none).run c = (.ok inv, w))

section

variable {app : App} {site : Site} {inv : Invocation} {a u v w : World} {control : Control}

/-- A handler that allows no retries has its goal called once, and the step has been dealt with. -/
theorem run_handle_of_once {h : ErrorHandler} {call : GoalCall} {e : EngineError} {c : World}
    {retries : Nat} (once : h.retry = none) (calls : h.goalToCall = some call)
    (enters : (prepare app call (errorParameters e) none).run c = (.ok inv, w))
    (hr : (runGoal app inv).run w = (.ok control, v)) :
    (handle app (runGoal app) h e (retries < h.retryCount)).run c = (.ok .carryOn, v) := by
  have spent : decide (retries < h.retryCount) = false := by
    simp [ErrorHandler.retryCount, once]
  have called : (callGoal app (runGoal app) call (errorParameters e)).run c = (.ok control, v) := by
    rw [callGoal, enter_eq]
    exact (run_bind_of_ok enters).trans hr
  simp only [handle, calls, spent, once, Bool.false_and, Bool.false_eq_true, ↓reduceIte]
  exact run_bind_of_ok called

/-- Whatever the handler's goal comes to, the turn at the step is over and the step proceeds. -/
theorem Handles.run_turn {effort : Effort} (h : Handles app site a inv w)
    (hr : (runGoal app inv).run w = (.ok control, v)) :
    (turn app (runGoal app) site effort).run a = (.ok (.settled .proceed), v) := by
  cases h with
  | mk fails unsettled unanswered selected once calls enters =>
    rw [run_turn_of_error fails, judge]
    simp only [unsettled, Bool.false_eq_true, ↓reduceIte]
    refine (run_bind_of_ok unanswered).trans ?_
    simp only [Bool.false_eq_true, ↓reduceIte, selected]
    exact run_bind_of_ok (run_handle_of_once once calls enters hr)

end

namespace Standing

variable {app : App} {s : Standing} {control : Control} {levels : Nat} {a v w : World}
  {inv : Invocation}

/-- Once the step has come to this, no event goal fails: none that the step's end calls, and none
that the goal's end calls if the step stops it. -/
def Calm (app : App) (s : Standing) (control : Control) (v : World) : Prop :=
  ∃ x, (stepEvents app (runGoal app) s.site .after).run (afterAttempt s.site v) = (.ok (), x) ∧
    (control.isProceed = false → ∃ y,
      (goalEvents app (runGoal app) s.inv.goal .after).run
        (leaveStep s.here ((runDeferred app (runGoal app)).run x).2) = (.ok (), y))

theorem Calm.undisturbed (h : s.Calm app control v)
    (ha : (attempt app (runGoal app) s.site).run a = (.ok control, v)) : s.Undisturbed app a := by
  intro control' v' ha'
  cases ha.symm.trans ha'
  exact h

/-- Without events no event goal can fail. -/
theorem calm_of_nil (h : app.library.events = []) : s.Calm app control v :=
  ⟨_, run_announce_of_nil _ h, fun _ => ⟨_, run_announce_of_nil _ h⟩⟩

/-- The goal goes on after a step whose last turn lets it proceed. -/
theorem Attempts.goesOn_of_settled (h : s.Attempts app a) (hc : s.Calm app .proceed v)
    (ht : ∀ effort, (turn app (runGoal app) s.site effort).run a = (.ok (.settled .proceed), v)) :
    s.GoesOn app := by
  obtain ⟨u, effort, hb, tries⟩ := h.tries
  obtain ⟨x, hx, -⟩ := hc
  have recovered := tries.run_recovery_of_settled (ht effort)
  have performed := (run_performStep_of_tried hb recovered).trans
    ((run_bind_of_ok hx).trans (run_bind_of_ok (run_runDeferred _ x)))
  have hr : s.runsTo app = _ := run_runStep h.runs performed
  exact ⟨congrArg Prod.fst hr, hr ▸ run_runSteps_of_proceed hr⟩

end Standing

/-- An exit leaves a goal that a step has called or fallen back on: the step's goal stops and hands
on one level less, if any is left. A goal that has been run by the step's handler instead keeps its
exit, as it keeps whatever it comes to: the step proceeds, and its goal goes on. -/
theorem exits_leave_goals_of_steps {app : App} {s : Standing} {inv : Invocation}
    {control : Control} {a v w : World} (arrives : s.Arrives app) (attempts : s.Attempts app a)
    (ends : (runGoal app inv).run w = (.ok control, v)) :
    (∀ levels, control = .exit levels → Calls app s.site a inv w → s.Calm app control v →
      s.Stops app levels ∧
      (1 < levels → ((runGoal app s.inv).run s.entry).1 = .ok (.exit (levels - 1))) ∧
      (levels = 1 → ((runGoal app s.inv).run s.entry).1 = .ok .proceed)) ∧
    (Handles app s.site a inv w → s.Calm app .proceed v → s.GoesOn app) := by
  refine ⟨?_, fun handles calm => ?_⟩
  · rintro levels rfl calls calm
    have attempted := calls.run_attempt ends nofun
    have stops := attempts.stops arrives (calm.undisturbed attempted) attempted
    refine ⟨stops, fun more => ?_, ?_⟩
    · obtain ⟨_, hr⟩ := stops.run_of_lt more
      exact congrArg Prod.fst hr
    · rintro rfl
      obtain ⟨_, hr⟩ := stops.run_of_one
      exact congrArg Prod.fst hr
  · exact attempts.goesOn_of_settled calm fun _ => handles.run_turn ends

namespace Mishap

/-- The module exits by two levels, fails, or calls the goal Out. -/
def mishap : Module where
  name := "mishap"
  functions := ["exit", "fail", "call"]
  call function :=
    if function = "exit" then pure (.exit 2)
    else if function = "fail" then Call.failStep { message := "failed" }
    else pure (.callGoal { name := "Out" })

def exit : Step := .new "mishap" { function := "exit" }

def failing : Step :=
  { Step.new "mishap" { function := "fail" } with
    errorHandlers := [{ goalToCall := some { name := "Out" } }] }

def calling : Step := .new "mishap" { function := "call" }

def out : Goal := .new "Out" [exit]

def app : App := ⟨{ goals := [(Text.lowercase "Out", out)] }, {}⟩

def start : World := ⟨.start 0 ⟨{ modules := [(Text.lowercase "mishap", mishap)] }, 0⟩ false, {}⟩

/-- A goal whose first step comes to run Out. -/
def standing (step : Step) : Standing :=
  let goal : Goal := .new "Main" [step, exit]
  { inv := { goal }, entry := start, passed := [], step, rest := [{ exit with index := 1 }]
    here := enterGoal { goal } start }

def tried (step : Step) : World :=
  (enterStep step (standing step).here).record (.stepStarted "Main" 0)

def ended (step : Step) : World :=
  ((callModule mishap (standing step).site (limitOf app step)).run
    ((tried step).record (.attempted "Main" 0))).2

theorem get_mishap : start.engine.registry.registry.get "mishap" = .ok mishap := by
  simp [Registry.get, Registry.isDisabled, Registry.target, start, Engine.start, Table.get?]

theorem get_out : app.library.get? "Out" = some out := by
  simp [Library.get?, app, Table.get?]

theorem arrives_failing : (standing failing).Arrives app where
  room := by decide
  steps := rfl
  passes := ⟨_, run_announce_of_nil _ rfl, rfl⟩

theorem attempts_failing : (standing failing).Attempts app (tried failing) where
  runs := rfl
  tries := ⟨_, {}, run_announce_of_nil _ rfl, .here⟩

def failure : EngineError := .step { message := "failed" }

def handed : Invocation := { goal := out, locals := errorParameters failure }

def begun : World :=
  ((prepare app { name := "Out" } (errorParameters failure) none).run (ended failing)).2

theorem handles_failing :
    Handles app (standing failing).site (tried failing) handed begun := by
  have ends : ModuleEnds app (standing failing).site (tried failing)
      (.error (.failed failure)) (ended failing) := ⟨mishap, get_mishap, by decide, rfl⟩
  have enters : (prepare app { name := "Out" } (errorParameters failure) none).run (ended failing) =
      (.ok handed, begun) := by with_unfolding_all rfl
  exact .mk (run_attempt ends) rfl rfl rfl rfl rfl enters

theorem ends_handed : (runGoal app handed).run begun =
    (.ok (.exit 1), ((runGoal app handed).run begun).2) := by with_unfolding_all rfl

theorem arrives_calling : (standing calling).Arrives app where
  room := by decide
  steps := rfl
  passes := ⟨_, run_announce_of_nil _ rfl, rfl⟩

theorem attempts_calling : (standing calling).Attempts app (tried calling) where
  runs := rfl
  tries := ⟨_, {}, run_announce_of_nil _ rfl, .here⟩

theorem calls_calling : Calls app (standing calling).site (tried calling) { goal := out }
    ((ended calling).record (.succeeded "Main" 0)) :=
  .output ⟨mishap, get_mishap, by decide, rfl⟩ rfl ⟨out, [], _, get_out, rfl, rfl, rfl, rfl⟩

theorem ends_called : (runGoal app { goal := out }).run
    ((ended calling).record (.succeeded "Main" 0)) = (.ok (.exit 1),
      ((runGoal app { goal := out }).run ((ended calling).record (.succeeded "Main" 0))).2) := rfl

end Mishap

open Mishap in
/-- The goal Out exits by two levels. The goal that calls it stops, and the goal that has it called
by a handler goes on. -/
theorem exits_leave_goals_of_steps_twice :
    ((runGoal app { goal := out }).run ((ended calling).record (.succeeded "Main" 0))).1 =
      .ok (.exit 1) ∧ (standing calling).Stops app 1 ∧
    ((runGoal app handed).run begun).1 = .ok (.exit 1) ∧ (standing failing).GoesOn app := by
  have called := exits_leave_goals_of_steps arrives_calling attempts_calling ends_called
  have handled := exits_leave_goals_of_steps arrives_failing attempts_failing ends_handed
  exact ⟨congrArg Prod.fst ends_called,
    (called.1 1 rfl calls_calling (Standing.calm_of_nil rfl)).1,
    congrArg Prod.fst ends_handed, handled.2 handles_failing (Standing.calm_of_nil rfl)⟩

open Mishap in
/-- One level is left of the exit of a handler's goal. The goal of the step that has failed is not
stopped by it and begins its next step, and the exit is lost. -/
theorem exits_of_handlers_are_lost :
    (standing failing).Arrives app ∧ (standing failing).Attempts app (tried failing) ∧
    Handles app (standing failing).site (tried failing) handed begun ∧
    ((runGoal app handed).run begun).1 = .ok (.exit 1) ∧
    (standing failing).Calm app (.exit 1) ((runGoal app handed).run begun).2 ∧
    ¬ (standing failing).Stops app 1 ∧
    .stepStarted "Main" 1 ∈ ((runGoal app (standing failing).inv).run start).2.host.journal := by
  refine ⟨arrives_failing, attempts_failing, handles_failing, congrArg Prod.fst ends_handed,
    Standing.calm_of_nil rfl, fun stops => ?_, by decide +kernel⟩
  have proceeds : ((standing failing).runsTo app).1 = .ok .proceed := by with_unfolding_all rfl
  cases proceeds.symm.trans stops.step

end GoalScript.Run
