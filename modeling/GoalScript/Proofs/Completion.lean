import GoalScript.Proofs.Conditions
import GoalScript.Proofs.Containment
import GoalScript.Proofs.Ledger

namespace GoalScript.Run

variable {app : App} {site : Site} {u v w : World}

/-- The module was called in this turn, and its function gave an output. -/
def Turn.Returned (app : App) (site : Site) (t : Turn) : Prop :=
  ∃ output u, ModuleEnds app site t.start (.ok output) u

structure Turn.Skips (site : Site) (t : Turn) : Prop where
  disabled : ∃ name,
    t.start.engine.registry.registry.get site.step.moduleType = .error (.disabled name)
  skipped : t.attempt.1 = .ok .proceed

/-- The turn ends the recovery without failure, whether or not a function gave an output in it. -/
inductive Turn.Excused (app : App) (site : Site) (t : Turn) : Prop where
  | skipped (skips : t.Skips site)
  -- A goal has taken the place of a function that ran out of time.
  | fellBack {call : GoalCall} {control : Control} {u : World}
    (ends : ModuleEnds app site t.start (.error .timedOut) u)
    (falls : site.step.cancellation.bind Cancellation.goalToCall = some call)
    (goes : t.attempt.1 = .ok control)
  -- A handler that never retries has called its goal or ignores the failure.
  | handled {e : EngineError} {h : ErrorHandler} (fails : t.attempt.1 = .error e)
    (found : site.step.handlerFor? e = some h) (once : h.retry = none)
    (waives : h.goalToCall.isSome = true ∨ h.ignoreError = true)
  -- Error events have dealt with the failure.
  | reported {e : EngineError} {b v : World} {firings : List Firing}
    (given : t.verdict = (.ok (.surrender e), b)) (bound : firings ≠ [])
    (reports : Reports app (stepErrorOccasion site e) e b firings (.ok (), v))

/-- Nothing in the program excuses a failure of the step. -/
structure Strict (app : App) (site : Site) : Prop where
  fallback : site.step.cancellation.bind Cancellation.goalToCall = none
  handlers : ∀ h ∈ site.step.errorHandlers, h.retry = none →
    h.goalToCall = none ∧ h.ignoreError = false
  events : ∀ e, (stepErrorOccasion site e).select app.library.events = []

/-- What is left is to skip it. -/
theorem Turn.Excused.skips {t : Turn} (h : t.Excused app site) (strict : Strict app site) :
    t.Skips site := by
  cases h with
  | skipped skips => exact skips
  | fellBack ends falls goes => cases strict.fallback.symm.trans falls
  | handled fails found once waives =>
    obtain ⟨uncalled, heeded⟩ := strict.handlers _ (List.mem_of_find?_eq_some found) once
    rw [uncalled, heeded] at waives
    rcases waives with called | ignored
    · cases called
    · cases ignored
  | reported given bound reports =>
    have fires := reports.fires
    rw [strict.events] at fires
    cases fires
    exact absurd rfl bound

theorem run_bind_eq_ok {α β : Type} {p : Run α} {f : α → Run β} {b : β} :
    (p >>= f).run w = (.ok b, v) ↔ ∃ a u, p.run w = (.ok a, u) ∧ (f a).run u = (.ok b, v) := by
  rw [run_bind]
  constructor
  · intro h
    rcases hp : p.run w with ⟨e | a, u⟩
    · rw [hp] at h
      cases congrArg Prod.fst h
    · rw [hp] at h
      exact ⟨a, u, rfl, h⟩
  · rintro ⟨a, u, hp, hf⟩
    rw [hp]
    exact hf

theorem run_of_outcome {α : Type} {p : Run α} {result : Except EngineError α}
    (h : (outcome p).run w = (.ok result, v)) : p.run w = (result, v) := by
  obtain ⟨hr, hv⟩ := Prod.mk.inj ((run_outcome p w).symm.trans h)
  exact Prod.ext (Except.ok.inj hr) hv

/-- A function that runs out of time leads to no failure only if there is a goal to fall back on. -/
theorem goalToCall_of_fallBack {control : Control}
    (h : (fallBack app (runGoal app) site.step).run w = (.ok control, v)) :
    ∃ call, site.step.cancellation.bind Cancellation.goalToCall = some call := by
  unfold fallBack at h
  split at h
  · rename_i call falls
    exact ⟨call, falls⟩
  · cases congrArg Prod.fst h

/-- How an attempt succeeds. -/
theorem attempt_of_ok {control : Control}
    (h : (attempt app (runGoal app) site).run w = (.ok control, v)) :
    (∃ output u, ModuleEnds app site w (.ok output) u) ∨
    (∃ name, w.engine.registry.registry.get site.step.moduleType = .error (.disabled name) ∧
      control = .proceed) ∨
    ∃ call u, ModuleEnds app site w (.error .timedOut) u ∧
      site.step.cancellation.bind Cancellation.goalToCall = some call := by
  rw [attempt, note, run_bind_of_ok (run_update _ w)] at h
  obtain ⟨m?, a, found, attempted⟩ := run_bind_eq_ok.mp h
  rw [run_moduleOf] at found
  have same : (w.record (.attempted site.goal.name site.step.index)).engine.registry =
      w.engine.registry := rfl
  rw [same] at found
  cases hm : w.engine.registry.registry.get site.step.moduleType with
  | error e =>
    rw [hm] at found
    cases e with
    | disabled name =>
      cases found
      cases congrArg Prod.fst attempted
      exact .inr (.inl ⟨name, rfl, rfl⟩)
    | notRegistered name suggestion => cases congrArg Prod.fst found
    | removed name => cases congrArg Prod.fst found
  | ok m =>
    rw [hm] at found
    cases found
    cases hf : m.hasFunction site.step.instruction.function with
    | false =>
      simp only [hf, Bool.not_false, ↓reduceIte] at attempted
      cases congrArg Prod.fst attempted
    | true =>
      simp only [hf, Bool.not_true, Bool.false_eq_true, ↓reduceIte] at attempted
      obtain ⟨result, u, called, concluded⟩ := run_bind_eq_ok.mp attempted
      have ends : ModuleEnds app site w result u := ⟨m, hm, hf, called⟩
      rcases result with (e | _) | output
      · obtain ⟨r, x, -, thrown⟩ := run_bind_eq_ok.mp concluded
        cases congrArg Prod.fst thrown
      · obtain ⟨_, x, -, fell⟩ := run_bind_eq_ok.mp concluded
        obtain ⟨call, falls⟩ := goalToCall_of_fallBack fell
        exact .inr (.inr ⟨call, u, ends, falls⟩)
      · exact .inl ⟨output, u, ends⟩

/-- A handler lets the goal carry on only if it never retries. -/
theorem handle_of_carryOn {h : ErrorHandler} {e : EngineError} {mayRetry : Bool}
    (hr : (handle app (runGoal app) h e mayRetry).run w = (.ok .carryOn, v)) :
    h.retry = none ∧ (h.goalToCall.isSome = true ∨ h.ignoreError = true) := by
  have again {u : World} :
      (wait h.retryDelay >>= fun _ => pure Remedy.tryAgain).run u ≠ (.ok .carryOn, v) := by
    intro hr
    cases congrArg Prod.fst hr
  unfold handle at hr
  cases hg : h.goalToCall with
  | some call =>
    rw [hg] at hr
    dsimp only at hr
    split at hr
    · exact absurd hr again
    · obtain ⟨control, u, -, hr⟩ := run_bind_eq_ok.mp hr
      split at hr
      · exact absurd hr again
      · cases hn : h.retry with
        | none => exact ⟨rfl, .inl rfl⟩
        | some policy =>
          rw [hn] at hr
          cases congrArg Prod.fst hr
  | none =>
    rw [hg] at hr
    dsimp only at hr
    split at hr
    · exact absurd hr again
    · cases hi : h.ignoreError && h.retry.isNone with
      | false =>
        rw [hi] at hr
        cases congrArg Prod.fst hr
      | true =>
        obtain ⟨ignores, never⟩ := Bool.and_eq_true_iff.mp hi
        exact ⟨Option.isNone_iff_eq_none.mp never, .inr ignores⟩

theorem handler_of_judge {effort : Effort} {e : EngineError} {control : Control}
    (h : (judge app (runGoal app) site effort e).run w = (.ok (.settled control), v)) :
    ∃ h, site.step.handlerFor? e = some h ∧ h.retry = none ∧
      (h.goalToCall.isSome = true ∨ h.ignoreError = true) := by
  unfold judge at h
  dsimp only at h
  split at h
  · cases congrArg Prod.fst h
  · obtain ⟨answered, u, -, h⟩ := run_bind_eq_ok.mp h
    split at h
    · cases congrArg Prod.fst h
    · split at h
      · cases congrArg Prod.fst h
      · rename_i handler found
        obtain ⟨remedy, x, handled, h⟩ := run_bind_eq_ok.mp h
        cases remedy with
        | tryAgain => cases congrArg Prod.fst h
        | giveUp => cases congrArg Prod.fst h
        | carryOn => exact ⟨handler, found, handle_of_carryOn handled⟩

/-- Error events that do not fail have run all the goals bound to the error. -/
theorem fires_of_runErrorBindings {scope : EventScope} {e : EngineError}
    {bindings : List EventBinding}
    (h : (runErrorBindings app (runGoal app) scope e bindings).run w = (.ok (), v)) :
    ∃ firings, Fires (fun b =>
      runEventGoal app (runGoal app) b.goalToCall ⟨scope, .onError⟩ (errorParameters e))
      bindings w firings (.ok (), v) := by
  induction bindings generalizing w with
  | nil =>
    cases h
    exact ⟨[], .done⟩
  | cons b rest ih =>
    obtain ⟨result, u, fired, others⟩ := run_bind_eq_ok.mp h
    cases result with
    | error failure => cases congrArg Prod.fst others
    | ok _ =>
      obtain ⟨firings, hf⟩ := ih others
      exact ⟨_, .fired (run_of_outcome fired) hf⟩

/-- Error events deal with an error only where no event goal runs and goals are bound to it. -/
theorem reports_of_announceError {o : Occasion} {e : EngineError}
    (h : (announceError app (runGoal app) o e).run w = (.ok (), v)) :
    ∃ firings, firings ≠ [] ∧ Reports app o e w firings (.ok (), v) := by
  rw [announceError, run_get_bind] at h
  dsimp only at h
  split at h
  · cases congrArg Prod.fst h
  · rename_i open'
    obtain ⟨down, fresh⟩ : w.engine.context.inEvent = false ∧ e.kind ≠ .alreadyHandled := by
      simpa using open'
    cases hb : o.select app.library.events with
    | nil =>
      rw [hb] at h
      cases congrArg Prod.fst h
    | cons b rest =>
      rw [hb] at h
      obtain ⟨firings, fires⟩ := fires_of_runErrorBindings h
      refine ⟨firings, ?_, down, fresh, hb ▸ fires⟩
      rintro rfl
      cases (fires.all_of_ok rfl).1

/-- A turn that ends the recovery without failure is one in which the module gave an output, or one
that is excused. -/
theorem turn_settled {effort : Effort} {control : Control}
    (h : (turnAt app site effort w).verdict = (.ok (.settled control), v)) :
    (turnAt app site effort w).Returned app site ∨ (turnAt app site effort w).Excused app site := by
  rcases ha : (attempt app (runGoal app) site).run w with ⟨e | control', u⟩
  · have judged := (run_turn_of_error ha).symm.trans h
    obtain ⟨handler, found, never, waives⟩ := handler_of_judge judged
    exact .inr (.handled (congrArg Prod.fst ha) found never waives)
  · rcases attempt_of_ok ha with returned | ⟨name, found, rfl⟩ | ⟨call, x, ends, falls⟩
    · exact .inl returned
    · exact .inr (.skipped ⟨⟨name, found⟩, congrArg Prod.fst ha⟩)
    · exact .inr (.fellBack ends falls (congrArg Prod.fst ha))

theorem turn_surrendered {effort : Effort} {e : EngineError} {control : Control}
    (h : (turnAt app site effort w).verdict = (.ok (.surrender e), u))
    (goes : (surrender app (runGoal app) site e).run u = (.ok control, v)) :
    (turnAt app site effort w).Excused app site := by
  obtain ⟨_, x, announced, -⟩ := run_bind_eq_ok.mp goes
  obtain ⟨firings, bound, reports⟩ := reports_of_announceError announced
  exact .reported h bound reports

/-- The last turn of a recovery that does not fail is one of these. -/
theorem Turns.last_of_ok {effort : Effort} {turns : List Turn} {r : Ending Control}
    {control : Control} (h : Turns app site effort w turns r) (hr : r = (.ok control, v)) :
    ∃ t, turns.getLast? = some t ∧ (t.Returned app site ∨ t.Excused app site) := by
  have later {t : Turn} {turns : List Turn}
      (ih : ∃ t', turns.getLast? = some t' ∧ (t'.Returned app site ∨ t'.Excused app site)) :
      ∃ t', (t :: turns).getLast? = some t' ∧ (t'.Returned app site ∨ t'.Excused app site) := by
    obtain ⟨t', last, way⟩ := ih
    refine ⟨t', ?_, way⟩
    rw [List.getLast?_cons, last]
    rfl
  induction h with
  | settled given => exact ⟨_, rfl, turn_settled given⟩
  | failed given => cases congrArg Prod.fst hr
  | surrendered given => exact ⟨_, rfl, .inr (turn_surrendered given hr)⟩
  | answered given _ ih => exact later (ih hr)
  | retried given _ ih => exact later (ih hr)

/-- What is done about the ledger after a recovery that has not failed. -/
theorem recorded_afterAttempt (once : site.step.runOnce = true) (v : World) :
    (afterAttempt site v).store.isRecorded (ledgerKey site.goal site.step) = true ∧
    (afterAttempt site v).host.journal =
      .recorded (ledgerKey site.goal site.step) :: v.host.journal := by
  have closed : (closeStep site.step v).host.journal = v.host.journal := by
    unfold closeStep
    split <;> rfl
  obtain ⟨recorded, noted⟩ := recorded_recordDone once (closeStep site.step v)
  exact ⟨recorded, noted.trans (congrArg _ closed)⟩

/-- The step is entered in the ledger in the course of its run: its recovery has ended without
failure in `v`. -/
structure Course.Enters (site : Site) (c : Course) (v : World) : Prop where
  recovered : ∃ control, c.recovered = some (.ok control, v)
  recorded : (afterAttempt site v).store.isRecorded (ledgerKey site.goal site.step) = true
  noted : (afterAttempt site v).host.journal =
    .recorded (ledgerKey site.goal site.step) :: v.host.journal

/-- The run of the step has failed before the ledger was opened. -/
inductive Course.Misses (site : Site) (here : World) (c : Course) : Prop where
  | refused {e : EngineError} {v : World} (begun : c.begun = (.error e, v))
    (recovered : c.recovered = none) (ends : c.ending = (.error e, leaveStep here v))
  | failed {e : EngineError} {v : World} (recovered : c.recovered = some (.error e, v))
    (ends : c.ending = (.error e, leaveStep here (closeStep site.step v)))

/-- An attempt at a step whose module is disabled does nothing and succeeds. -/
theorem run_attempt_of_disabled {name : String}
    (h : w.engine.registry.registry.get site.step.moduleType = .error (.disabled name)) :
    (attempt app (runGoal app) site).run w =
      (.ok .proceed, w.record (.attempted site.goal.name site.step.index)) := by
  let a := w.record (.attempted site.goal.name site.step.index)
  have found := run_moduleOf site.step a
  have disabled : a.engine.registry.registry.get site.step.moduleType = .error (.disabled name) := h
  rw [disabled] at found
  rw [attempt, note, run_bind_of_ok (run_update _ w), run_bind_of_ok found]
  rfl

theorem exists_announced_of_nil (events : app.library.events = []) (o : Occasion)
    (values : Table Value) (w : World) :
    ∃ firings, Announced app o values w firings (.ok (), w) := by
  obtain ⟨firings, h⟩ := Announced.exists_of app o values w
  rw [run_announce_of_nil _ events] at h
  exact ⟨firings, h⟩

/-- Without events an attempt that succeeds at once is the only turn of its step. -/
theorem exists_stepRuns_of_attempt {here : World} {control : Control}
    (events : app.library.events = []) (once : site.step.runOnce = true)
    (attempted : (attempt app (runGoal app) site).run
      ((enterStep site.step here).record (.stepStarted site.goal.name site.step.index)) =
        (.ok control, v)) :
    ∃ c, StepRuns app site here c ∧ c.Enters site v ∧
      ∀ t ∈ c.turns, t.start =
        (enterStep site.step here).record (.stepStarted site.goal.name site.step.index) := by
  have settled : (turnAt app site {} ((enterStep site.step here).record
      (.stepStarted site.goal.name site.step.index))).verdict = (.ok (.settled control), v) :=
    run_turn_of_ok attempted
  obtain ⟨before, hb⟩ := exists_announced_of_nil events (stepOccasion site .before)
    (stepValues site) (enterStep site.step here)
  obtain ⟨after, ha⟩ := exists_announced_of_nil events (stepOccasion site .after)
    (stepValues site) (afterAttempt site v)
  obtain ⟨recorded, noted⟩ := recorded_afterAttempt once v
  refine ⟨_, .finished hb (.settled settled) ha, ⟨⟨_, rfl⟩, recorded, noted⟩, fun t member => ?_⟩
  obtain rfl := List.mem_singleton.mp member
  rfl

/-- A step that runs once is entered in the ledger if its recovery does not fail. In the last turn
its module has given an output, or the turn is excused; if nothing in the program excuses failures,
the module has given an output or is disabled. -/
theorem ledger_records_recoveries {here : World} {c : Course} (h : StepRuns app site here c)
    (once : site.step.runOnce = true) :
    (∃ v t, c.Enters site v ∧ c.turns.getLast? = some t ∧
      (t.Returned app site ∨ t.Excused app site) ∧
      (Strict app site → t.Returned app site ∨ t.Skips site)) ∨ c.Misses site here := by
  have strictly {t : Turn} (way : t.Returned app site ∨ t.Excused app site)
      (strict : Strict app site) : t.Returned app site ∨ t.Skips site :=
    way.imp_right fun excused => excused.skips strict
  cases h with
  | refused events => exact .inr (.refused rfl rfl rfl)
  | failed events attempts => exact .inr (.failed rfl rfl)
  | disturbed events attempts ends =>
    obtain ⟨t, last, way⟩ := attempts.last_of_ok rfl
    obtain ⟨recorded, noted⟩ := recorded_afterAttempt once _
    exact .inl ⟨_, t, ⟨⟨_, rfl⟩, recorded, noted⟩, last, way, strictly way⟩
  | finished events attempts ends =>
    obtain ⟨t, last, way⟩ := attempts.last_of_ok rfl
    obtain ⟨recorded, noted⟩ := recorded_afterAttempt once _
    exact .inl ⟨_, t, ⟨⟨_, rfl⟩, recorded, noted⟩, last, way, strictly way⟩

/-- A step whose module does its work. -/
theorem ledger_records_recoveries_probe :
    let probe : Module := {
      name := "probe", functions := ["record"], call := fun _ => pure .nothing }
    let step : Step := { Step.new "probe" { function := "record" } with runOnce := true }
    let site : Site := ⟨.new "Main" [step], step⟩
    let app : App := ⟨.ofFile { goals := [site.goal] }, {}⟩
    let w : World := ⟨.start 0 ⟨{ modules := [(Text.lowercase "probe", probe)] }, 0⟩ false, {}⟩
    ∃ c v t, StepRuns app site w c ∧ c.Enters site v ∧ c.turns.getLast? = some t ∧
      t.Returned app site := by
  intro probe step site app w
  have found : w.engine.registry.registry.get site.step.moduleType = .ok probe := by
    simp [Registry.get, Registry.isDisabled, Registry.target, w, site, step, Step.new,
      Engine.start, Table.get?]
  let started := (enterStep site.step w).record (.stepStarted site.goal.name site.step.index)
  have ends : ModuleEnds app site started (.ok .nothing)
      (started.record (.attempted site.goal.name site.step.index)) :=
    ⟨probe, found, by decide, rfl⟩
  have attempted : (attempt app (runGoal app) site).run started = (.ok .proceed, _) :=
    (run_attempt ends).trans rfl
  have events : app.library.events = [] := rfl
  have once : site.step.runOnce = true := rfl
  have strict : Strict app site := {
    fallback := rfl
    handlers := fun h member => absurd member List.not_mem_nil
    events := fun e => rfl }
  obtain ⟨c, runs, ⟨⟨_, recovered⟩, -, -⟩, starts⟩ :=
    exists_stepRuns_of_attempt events once attempted
  rcases ledger_records_recoveries runs once with ⟨v, t, enters, last, -, way⟩ | misses
  · refine ⟨c, v, t, runs, enters, last, (way strict).resolve_right ?_⟩
    rintro ⟨⟨name, disabled⟩, -⟩
    rw [starts t (List.mem_of_getLast? last)] at disabled
    cases found.symm.trans disabled
  · cases misses with
    | refused begun absent ends => cases recovered.symm.trans absent
    | failed failed ends => cases recovered.symm.trans failed

/-- A step whose module is disabled is entered in the ledger, although no module is called. -/
theorem ledger_records_disabled_steps :
    let step : Step := { Step.new "probe" { function := "record" } with runOnce := true }
    let site : Site := ⟨.new "Main" [step], step⟩
    let app : App := ⟨.ofFile { goals := [site.goal] }, {}⟩
    let w : World := ⟨.start 0 ⟨Registry.disable {} "probe", 0⟩ false, {}⟩
    ∃ c v, passesOver w site = false ∧ StepRuns app site w c ∧ c.Enters site v ∧
      ∀ t ∈ c.turns, ¬ t.Returned app site := by
  intro step site app w
  have disabled : w.engine.registry.registry.get site.step.moduleType =
      .error (.disabled "probe") := by
    simp [Registry.get, Registry.isDisabled, w, site, step, Step.new, Engine.start,
      Registry.disable, Names.insert, Table.insert, Table.keys]
  have events : app.library.events = [] := rfl
  have once : site.step.runOnce = true := rfl
  have attempted : (attempt app (runGoal app) site).run
      ((enterStep site.step w).record (.stepStarted site.goal.name site.step.index)) =
        (.ok .proceed, _) := run_attempt_of_disabled disabled
  obtain ⟨c, runs, enters, starts⟩ := exists_stepRuns_of_attempt events once attempted
  refine ⟨c, _, rfl, runs, enters, fun t member => ?_⟩
  rintro ⟨output, u, m, enabled, -⟩
  rw [starts t member] at enabled
  cases disabled.symm.trans enabled

end GoalScript.Run
