import GoalScript.Proofs.Courses
import GoalScript.Proofs.Presenting
import GoalScript.Proofs.Unwinding

namespace GoalScript

namespace Run

variable {α β : Type} {app : App} {site : Site} {effort : Effort}

def presented : Except EngineError Control → List GoalScript.Entry
  | .error e => e.request?.toList.map .prompted
  | .ok _ => []

/-- The turn presents the request that its attempt fails with, once, when the attempt is over. All
else that is presented belongs to goals that the turn begins. -/
def Turn.PresentsOnce (site : Site) (t : Turn) : Prop :=
  ∃ inside after, Entry.Aside inside ∧ Entry.Aside after ∧
    t.attempt.2.host.journal =
      inside ++ .attempted site.goal.name site.step.index :: t.start.host.journal ∧
    t.verdict.2.host.journal = after ++ presented t.attempt.1 ++ t.attempt.2.host.journal

section

variable {e : EngineError} {w : World}

theorem entries_of_attempt (app : App) (site : Site) (candid : w.engine.registry.Candid) :
    ((attempt app (runGoal app) site).run w).2.engine.registry.Candid ∧
      ∃ inside, ((attempt app (runGoal app) site).run w).2.host.journal =
        inside ++ .attempted site.goal.name site.step.index :: w.host.journal ∧
        Entry.Aside inside := by
  rw [attempt_eq, note, run_bind_of_ok (run_update _ w)]
  exact entries_of_aside candid fun _ _ => aside_tryModule site

theorem entries_of_judge (app : App) (site : Site) (effort : Effort) (e : EngineError)
    (candid : w.engine.registry.Candid) :
    ∃ after, ((judge app (runGoal app) site effort e).run w).2.host.journal =
      after ++ presented (.error e) ++ w.host.journal ∧ Entry.Aside after := by
  rcases hr : e.request? with _ | request
  · have stays (old : List GoalScript.Entry) (start : List Bool) :
        StaysAside old start (judge app (runGoal app) site effort e) := aside_judge_of_none hr
    obtain ⟨-, after, journal, aside⟩ := entries_of_aside candid stays
    refine ⟨after, ?_, aside⟩
    simp only [presented, hr, Option.toList, List.map_nil, List.append_nil]
    exact journal
  · rw [judge_of_request _ hr, note, run_bind_of_ok (run_update _ w)]
    have stays (old : List GoalScript.Entry) (start : List Bool) : StaysAside old start
        (hear app e request >>= settle app (runGoal app) site effort e) :=
      (aside_hear e request).bind fun answered => aside_settle site effort e answered
    obtain ⟨-, after, journal, aside⟩ := entries_of_aside (w := w.record (.prompted request))
      candid stays
    refine ⟨after, ?_, aside⟩
    simp only [presented, hr, Option.toList, List.map_cons, List.map_nil, List.append_assoc,
      List.cons_append, List.nil_append]
    exact journal

/-- A turn presents the request of its attempt once, and none if there is none. -/
theorem turn_presents_once (site : Site) (effort : Effort) (candid : w.engine.registry.Candid) :
    (turnAt app site effort w).PresentsOnce site := by
  obtain ⟨candid', inside, entered, aside⟩ := entries_of_attempt app site candid
  rcases hr : (attempt app (runGoal app) site).run w with ⟨e | control, v⟩
  · have verdict : (turn app (runGoal app) site effort).run w =
        (judge app (runGoal app) site effort e).run v := run_turn_of_error hr
    rw [hr] at candid' entered
    obtain ⟨after, journal, aside'⟩ := entries_of_judge app site effort e candid'
    refine ⟨inside, after, aside, aside', ?_, ?_⟩
    · simp only [turnAt, hr]
      exact entered
    · simp only [turnAt, hr, verdict]
      exact journal
  · have verdict : (turn app (runGoal app) site effort).run w = (.ok (.settled control), v) :=
      run_turn_of_ok hr
    rw [hr] at entered
    refine ⟨inside, [], aside, fun _ => rfl, ?_, ?_⟩
    · simp only [turnAt, hr]
      exact entered
    · simp only [turnAt, hr, verdict, presented, List.append_nil, List.nil_append]

end

end Run

namespace World

/-- The requests presented so far, newest first. -/
def requests (w : World) : List Request := w.host.journal.filterMap Entry.request?

structure Declines (w : World) : Prop where
  replies : w.host.replies = []
  refusals : ∀ i, w.host.refusals i = none

def decline (w : World) (request : Request) : World :=
  let asked := w.record (.prompted request)
  { asked with host := { asked.host with refusals := fun i => w.host.refusals (i + 1) } }

theorem Declines.decline {w : World} (h : w.Declines) (request : Request) :
    (w.decline request).Declines := ⟨h.replies, fun i => h.refusals (i + 1)⟩

theorem requests_decline (w : World) (request : Request) :
    (w.decline request).requests = request :: w.requests := rfl

/-- The ends of a step and of its goal present nothing and take no replies. -/
theorem Declines.leave {w : World} (h : w.Declines) (goal : Goal) (step : Step)
    (here entry : World) :
    (Run.leaveGoal goal entry (Run.leaveStep here (Run.closeStep step w))).Declines := by
  unfold Run.closeStep
  split <;> exact ⟨h.replies, h.refusals⟩

theorem requests_leave (goal : Goal) (step : Step) (here entry w : World) :
    (Run.leaveGoal goal entry (Run.leaveStep here (Run.closeStep step w))).requests =
      w.requests := by
  unfold Run.closeStep
  split <;> rfl

end World

namespace Run

section

variable {app : App} {site : Site} {effort : Effort} {e : EngineError} {request : Request}
  {a b v w : World}

/-- A request that is declined leaves the failure as it was. -/
theorem run_intervene_of_declines (hr : e.request? = some request) (hd : b.Declines) :
    (intervene app e).run b = (.ok false, b.decline request) := by
  have replied : takeReply.run (b.record (.prompted request)) =
      (.ok .decline, b.decline request) := by
    have replies : (b.record (.prompted request)).host.replies = [] := hd.replies
    have refusal : (b.record (.prompted request)).host.refusals 0 = none := hd.refusals 0
    rw [takeReply, run_get_bind, replies]
    dsimp only
    rw [refusal]
    rfl
  rw [intervene_eq hr, note, run_bind_of_ok (run_update _ b), hear, run_bind_of_ok replied]
  rfl

/-- A declined request that no handler is for is handed to the error events. -/
theorem run_turn_of_declined (ha : (attempt app (runGoal app) site).run a = (.error e, b))
    (hr : e.request? = some request) (hd : b.Declines) (hh : site.step.handlerFor? e = none) :
    (turn app (runGoal app) site {}).run a = (.ok (.surrender e), b.decline request) := by
  rw [run_turn_of_error ha, judge_eq _ (isFinal_of_request hr),
    run_bind_of_ok (run_intervene_of_declines hr hd), settle]
  simp only [Bool.false_eq_true, ↓reduceIte, hh]
  rfl

/-- Errors that no event is bound to are thrown again. -/
theorem run_announceError_of_nil {o : Occasion} (h : app.library.events = []) :
    (announceError app (runGoal app) o e).run w = (.error e, w) := by
  have unbound : o.select app.library.events = [] := by
    rw [h]
    rfl
  rw [announceError, run_get_bind, unbound]
  dsimp only
  split <;> rfl

/-- Without handlers a declined request fails the step. -/
theorem run_recovery_of_declined (h : app.library.events = [])
    (ha : (attempt app (runGoal app) site).run a = (.error e, b))
    (hr : e.request? = some request) (hd : b.Declines) (hh : site.step.handlerFor? e = none) :
    (recovery app (runGoal app) site {}).run a = (.error e, b.decline request) := by
  rw [recovery, run_bind_of_ok (run_turn_of_declined ha hr hd hh)]
  exact run_bind_of_error (run_announceError_of_nil h)

theorem run_callGoal_of_error {call : GoalCall} {inv : Invocation}
    (h : Enters app call a inv w) (hr : (runGoal app inv).run w = (.error e, v)) :
    (callGoal app (runGoal app) call []).run a = (.error e, v) := (run_callGoal h).trans hr

/-- A step fails with what the goal fails with that it comes to run. -/
theorem Calls.run_attempt_of_error {inv : Invocation} (h : Calls app site a inv w)
    (hr : (runGoal app inv).run w = (.error e, v)) :
    (attempt app (runGoal app) site).run a = (.error e, v) := by
  cases h with
  | output ends fires enters =>
    rw [Run.run_attempt ends, conclude, note, run_bind_of_ok (run_update _ _),
      run_bind_of_ok fires, applyOutput, run_bind_of_error (run_callGoal_of_error enters hr)]
  | fallback ends falls fires enters =>
    rw [Run.run_attempt ends, conclude, run_bind_of_ok fires, fallBack, falls]
    dsimp only
    rw [run_bind_of_error (run_callGoal_of_error enters hr)]

end

/-- The step is not passed over and is attempted in `a`, and no retry has been made of it. -/
structure Standing.AttemptsAfresh (app : App) (s : Standing) (a : World) : Prop where
  runs : passesOver s.here s.site = false
  tries : ∃ u,
    (stepEvents app (runGoal app) s.site .before).run (enterStep s.step s.here) = (.ok (), u) ∧
    Tries app s.site {} (u.record (.stepStarted s.inv.goal.name s.step.index)) {} a

/-- Goals that call one another, outermost first, up to a step that fails with an error in the world
`raised`. None of the steps has a handler for it. -/
inductive Failing (app : App) (e : EngineError) (raised : World) : List Standing → Prop where
  | raises {s : Standing} {a : World} (arrives : s.Arrives app)
    (attempts : s.AttemptsAfresh app a)
    (fails : (attempt app (runGoal app) s.site).run a = (.error e, raised))
    (unhandled : s.step.handlerFor? e = none) : Failing app e raised [s]
  | calls {s t : Standing} {inner : List Standing} {a : World} (arrives : s.Arrives app)
    (attempts : s.AttemptsAfresh app a) (calls : Calls app s.site a t.inv t.entry)
    (unhandled : s.step.handlerFor? e = none) (rest : Failing app e raised (t :: inner)) :
    Failing app e raised (s :: t :: inner)

section

variable {app : App} {s : Standing} {e : EngineError} {request : Request} {a b raised : World}

/-- A declined request leaves the goal of its step as it has come, and has been presented once
more. -/
theorem Standing.run_of_declined (h : app.library.events = []) (arrives : s.Arrives app)
    (attempts : s.AttemptsAfresh app a)
    (fails : (attempt app (runGoal app) s.site).run a = (.error e, b))
    (unhandled : s.step.handlerFor? e = none) (hr : e.request? = some request)
    (hd : b.Declines) :
    ∃ v, (runGoal app s.inv).run s.entry = (.error e, v) ∧ v.Declines ∧
      v.requests = request :: b.requests := by
  obtain ⟨u, started, tries⟩ := attempts.tries
  obtain ⟨x, begun, passed⟩ := arrives.passes
  have recovered := tries.run_recovery_eq.trans (run_recovery_of_declined h fails hr hd unhandled)
  have stepped : (runStep app (runGoal app) ⟨s.inv.goal, s.step⟩).run s.here =
      (.error e, leaveStep s.here (closeStep s.step (b.decline request))) :=
    run_runStep attempts.runs (run_performStep_of_failed started recovered)
  have new : e.kind ≠ .alreadyHandled := fun he => by
    have open_ := isFinal_of_request hr
    rw [he] at open_
    cases open_
  have looped : (runSteps app (runGoal app) s.inv.goal (s.step :: s.rest)).run s.here =
      (.error e, leaveStep s.here (closeStep s.step (b.decline request))) := by
    rw [runSteps, run_bind, run_outcome, stepped]
    dsimp only
    rw [run_bind, run_afterStep, goalErrorEvents, run_announceError_of_nil h]
    simp only [new, ↓reduceIte]
  have body : (goalBody app (runGoal app) s.inv.goal).run (enterGoal s.inv s.entry) =
      (.error e, leaveStep s.here (closeStep s.step (b.decline request))) := by
    refine (run_bind_of_ok begun).trans (run_bind_of_error ?_)
    rw [arrives.steps, run_runSteps_append s.passed passed, looped]
  have ran := (perform_goal app s.inv s.entry).trans (run_goalRun_of_body arrives.room body)
  refine ⟨_, ran, (hd.decline request).leave _ _ _ _, ?_⟩
  exact (World.requests_leave _ _ _ _ _).trans (World.requests_decline b request)

/-- Each goal on the way presents the request once more. -/
theorem Failing.run_of_declined (h : app.library.events = []) (hr : e.request? = some request)
    (hd : raised.Declines) {goals : List Standing} (failing : Failing app e raised goals)
    {inner : List Standing} (hs : goals = s :: inner) :
    ∃ v, (runGoal app s.inv).run s.entry = (.error e, v) ∧ v.Declines ∧
      v.requests = List.replicate goals.length request ++ raised.requests := by
  induction failing generalizing s inner with
  | raises arrives attempts fails unhandled =>
    cases hs
    exact Standing.run_of_declined h arrives attempts fails unhandled hr hd
  | @calls s t inner a arrives attempts calls unhandled rest ih =>
    cases hs
    obtain ⟨v, failed, declines, presented⟩ := ih rfl
    obtain ⟨v', failed', declines', presented'⟩ := Standing.run_of_declined h arrives attempts
      (calls.run_attempt_of_error failed) unhandled hr declines
    refine ⟨v', failed', declines', ?_⟩
    rw [presented', presented]
    rfl

end

/-- In every run each presentation is the first one after an attempt in the same goal, and what is
presented after an attempt is the request that it fails with. Hence a request is presented at most
once for each attempt that it fails: the one that has raised it, and those of the steps that call
its goal and the goals around. If it is declined and nobody else deals with it, it is presented once
for each of them. -/
theorem requests_are_presented_once_by_attempts (app : App) (w : World)
    (candid : w.engine.registry.Candid) :
    (∀ {α : Type} (p : Run α), Entry app p →
      (∀ s, Reaches (p, w) s →
        ∃ new, s.2.host.journal = new ++ w.host.journal ∧ Entry.Attended new) ∧
      ∃ new, (p.run w).2.host.journal = new ++ w.host.journal ∧ Entry.Aside new) ∧
    (∀ site effort, (turnAt app site effort w).PresentsOnce site) ∧
    (∀ e request raised s inner, app.library.events = [] → e.request? = some request →
      raised.Declines → Failing app e raised (s :: inner) →
      ∃ v, (runGoal app s.inv).run s.entry = (.error e, v) ∧
        v.requests = List.replicate (inner.length + 1) request ++ raised.requests) := by
  refine ⟨fun p entry => ⟨fun s reaches => ?_, ?_⟩, fun site effort => ?_, ?_⟩
  · exact attended_of_reaches candid (fun _ _ => entry.staysAside) reaches
  · exact (entries_of_aside candid fun _ _ => entry.staysAside).2
  · exact turn_presents_once site effort candid
  · intro e request raised s inner unbound hr declines failing
    obtain ⟨v, failed, -, presented⟩ := failing.run_of_declined unbound hr declines rfl
    exact ⟨v, failed, presented⟩

namespace Asking

def ask : Step := .new "user" {
  function := "ask", parameters := [⟨"question", .text "Who?"⟩, ⟨"answer", .text "name"⟩] }

def call : Step := .new "goal" { function := "call", parameters := [⟨"name", .text "Sub"⟩] }

def sub : Goal := .new "Sub" [ask]

def main : Goal := .new "Main" [call]

def app : App := ⟨Library.ofFile { goals := [main, sub] }, {}⟩

def start : World := ⟨.start 0 ⟨.withBuiltins, 0⟩ false, {}⟩

def request : Request := .ask "Who?" "name"

def tried (goal : Goal) (step : Step) (entry : World) : World :=
  (enterStep step (enterGoal { goal } entry)).record (.stepStarted goal.name 0)

def ended (m : Module) (goal : Goal) (step : Step) (entry : World) : World :=
  ((callModule m ⟨goal, step⟩ (limitOf app step)).run
    ((tried goal step entry).record (.attempted goal.name 0))).2

def standing (goal : Goal) (step : Step) (entry : World) : Standing where
  inv := { goal }
  entry := entry
  passed := []
  step := step
  rest := []
  here := enterGoal { goal } entry

def outer : Standing := standing main call start

def called : World := (ended Builtin.goals main call start).record (.succeeded "Main" 0)

def inner : Standing := standing sub ask called

def raised : World := ended Builtin.users sub ask called

theorem arrives_outer : outer.Arrives app where
  room := by decide
  steps := rfl
  passes := ⟨_, run_announce_of_nil _ rfl, rfl⟩

theorem attempts_outer : outer.AttemptsAfresh app (tried main call start) where
  runs := rfl
  tries := ⟨_, run_announce_of_nil _ rfl, .here⟩

theorem calls_outer :
    Calls app outer.site (tried main call start) inner.inv inner.entry := by
  have ends : ModuleEnds app outer.site (tried main call start) (.ok (.callGoal { name := "Sub" }))
      (ended Builtin.goals main call start) :=
    ⟨Builtin.goals, by with_unfolding_all rfl, by decide +kernel, by with_unfolding_all rfl⟩
  have fires : (fire app).run called = (.ok (), called) := by with_unfolding_all rfl
  have enters : Enters app { name := "Sub" } called inner.inv inner.entry :=
    ⟨sub, [], called, by with_unfolding_all rfl, rfl, rfl, fires, rfl⟩
  exact .output ends fires enters

theorem arrives_inner : inner.Arrives app where
  room := by decide
  steps := rfl
  passes := ⟨_, run_announce_of_nil _ rfl, rfl⟩

theorem attempts_inner : inner.AttemptsAfresh app (tried sub ask called) where
  runs := by with_unfolding_all rfl
  tries := ⟨_, run_announce_of_nil _ rfl, .here⟩

theorem fails_inner : (attempt app (runGoal app) inner.site).run (tried sub ask called) =
    (.error (.interactive request), raised) := by with_unfolding_all rfl

theorem declines_raised : raised.Declines where
  replies := by with_unfolding_all rfl
  refusals := by with_unfolding_all (exact fun _ => rfl)

end Asking

open Asking in
/-- Main calls Sub, which asks. -/
theorem requests_are_presented_once_by_attempts_nested :
    start.engine.registry.Candid ∧
    (∀ s, Reaches (session app ["Main"], start) s →
      ∃ new, s.2.host.journal = new ++ start.host.journal ∧ Entry.Attended new) ∧
    (turnAt app inner.site {} start).PresentsOnce inner.site ∧
    ∃ v, (runGoal app outer.inv).run start = (.error (.interactive request), v) ∧
      v.requests = [request, request] ++ raised.requests := by
  have candid : start.engine.registry.Candid := Handle.candid_withBuiltins 0
  obtain ⟨runs, turns, passes⟩ := requests_are_presented_once_by_attempts app start candid
  have failing : Failing app (.interactive request) raised [outer, inner] :=
    .calls arrives_outer attempts_outer calls_outer rfl
      (.raises arrives_inner attempts_inner fails_inner rfl)
  exact ⟨candid, (runs _ (.session ["Main"])).1, turns _ {},
    passes _ _ _ outer [inner] rfl rfl declines_raised failing⟩

open Asking in
/-- The function that asks is called once, and what it asks for is presented twice: it is declined
where it is raised, and then again by the step that has called the goal. -/
theorem declined_requests_are_presented_again :
    let r := (session app ["Main"]).run start
    (r.2.host.journal.countP fun entry => entry == .attempted "Sub" 0) = 1 ∧
      r.2.requests = [request, request] := by decide +kernel

end Run

end GoalScript
