import GoalScript.Proofs.Courses
import GoalScript.Proofs.Machine

namespace GoalScript

/-- No event goal runs, and no module makes it seem so. -/
structure World.Outside (w : World) : Prop where
  down : w.engine.context.inEvent = false
  discreet : w.engine.registry.Discreet

namespace World.Outside

variable {v w : World}

theorem of_follows {top : Frame → Frame → Prop} (hw : w.Outside) (h : w.Follows top v) :
    v.Outside where
  down := (congrArg (fun flags => flags.1) (h.flags hw.discreet)).trans hw.down
  discreet := h.registry ▸ hw.discreet

theorem enterGoal (hw : w.Outside) (inv : Invocation) : (Run.enterGoal inv w).Outside where
  down := by
    obtain ⟨registry, host, he, -⟩ := Run.enterGoal_eq inv w
    rw [he]
    exact (Context.enterScope_inEvent _ _).trans hw.down
  discreet entry he := hw.discreet entry (Run.modules_enterGoal inv w ▸ he)

theorem enterStep (hw : w.Outside) (step : Step) : (Run.enterStep step w).Outside where
  down := (Context.enterScope_inEvent _ _).trans hw.down
  discreet := hw.discreet

end World.Outside

def Task.OnTheWay : Task → Prop
  | .goal _ inv => inv.OnTheWay
  | .fire _ => True
  | .recovery .. => True

/-- The contract of a run that begins no goal for an event of a goal or of a step while the stack is
this deep. -/
def withholding (app : App) (depth : Nat) : Contract where
  always _ := True
  owes t v := t.app = app ∧ depth ≤ v.engine.stack.length ∧
    (v.engine.stack.length = depth → t.OnTheWay)
  grants t v e := (t.start v).Follows t.top e.2

namespace Run

variable {app : App} {u v w : World}

/-- From `w` on the goals bound to the occasion are run one by one, in the order declared: all of
them, or those up to one that fails. -/
structure Rung (app : App) (o : Occasion) (values : Table Value) (w : World)
    (firings : List Firing) (r : Ending Unit) : Prop where
  fires : Fires
    (fun b => runEventGoal app (runGoal app) b.goalToCall ⟨o.scope, b.eventType⟩ values)
    (o.select app.library.events) w firings r
  order : firings.map Firing.binding <+: o.select app.library.events
  all : r.1 = .ok () → firings.map Firing.binding = o.select app.library.events ∧
    ∀ f ∈ firings, f.ending.1 = .ok ()
  stopped : ∀ e, r.1 = .error e → ∃ fired last, firings = fired ++ [last] ∧
    last.ending.1 = .error e ∧ ∀ f ∈ fired, f.ending.1 = .ok ()

/-- Outside event goals every announcement is heard. -/
theorem Announced.rung {o : Occasion} {values : Table Value} {firings : List Firing}
    {r : Ending Unit} (h : Announced app o values w firings r)
    (hc : w.engine.context.inEvent = false) : Rung app o values w firings r := by
  cases h with
  | silent up => exact absurd (up.symm.trans hc) nofun
  | fires down h =>
    refine ⟨h, h.isPrefix, h.all_of_ok, fun e he => ?_⟩
    obtain ⟨fired, last, hf, hl, hall⟩ := h.last_of_error he
    exact ⟨fired, last, hf, hl ▸ he, hall⟩

/-- The events of a step stand around its turns. -/
structure Course.Bracketed (app : App) (site : Site) (here : World) (c : Course) : Prop where
  before : Rung app (stepOccasion site .before) (stepValues site) (enterStep site.step here)
    c.before c.begun
  -- If a Before goal fails the step is not attempted.
  refused : ∀ e, c.begun.1 = .error e →
    c.turns = [] ∧ c.recovered = none ∧ c.ending.1 = .error e
  -- All turns come after the Before goals.
  attempted : c.begun.1 = .ok () → ∃ r, c.recovered = some r ∧
    Turns app site {} (c.begun.2.record (.stepStarted site.goal.name site.step.index)) c.turns r
  after_iff : c.after.isSome ↔ ∃ control v, c.recovered = some (.ok control, v)
  failed : ∀ e v, c.recovered = some (.error e, v) → c.ending.1 = .error e
  -- The After goals come after all turns, and if one fails so does the step.
  after : ∀ firings, c.after = some firings → ∃ control v r,
    c.recovered = some (.ok control, v) ∧
    Rung app (stepOccasion site .after) (stepValues site) (afterAttempt site v) firings r ∧
    (r.1 = .ok () → c.ending.1 = .ok control) ∧ ∀ e, r.1 = .error e → c.ending.1 = .error e

theorem StepRuns.bracketed {site : Site} {here : World} {c : Course}
    (h : StepRuns app site here c) (hw : here.Outside) : c.Bracketed app site here := by
  have entered : (enterStep site.step here).Outside := hw.enterStep site.step
  have tried {before : List Firing} {turns : List Turn} {control : Control} {u v : World}
      (events : Announced app (stepOccasion site .before) (stepValues site)
        (enterStep site.step here) before (.ok (), u))
      (attempts : Turns app site {} (u.record (.stepStarted site.goal.name site.step.index)) turns
        (.ok control, v)) : (afterAttempt site v).Outside := by
    have hu : u.Outside := entered.of_follows events.follows
    have hv : v.Outside := (hu.of_follows (u.follows_record _)).of_follows attempts.follows
    exact hv.of_follows (follows_afterAttempt site v)
  cases h with
  | refused events =>
    refine ⟨events.rung entered.down, fun e he => ?_, nofun, ⟨nofun, ?_⟩, nofun, nofun⟩
    · cases he
      exact ⟨rfl, rfl, rfl⟩
    · rintro ⟨control, v, hr⟩
      cases hr
  | failed events attempts =>
    refine ⟨events.rung entered.down, nofun, fun _ => ⟨_, rfl, attempts⟩, ⟨nofun, ?_⟩, ?_, nofun⟩
    · rintro ⟨control, v, hr⟩
      cases hr
    · intro e v hr
      cases hr
      rfl
  | disturbed events attempts ends =>
    refine ⟨events.rung entered.down, nofun, fun _ => ⟨_, rfl, attempts⟩,
      ⟨fun _ => ⟨_, _, rfl⟩, fun _ => rfl⟩, nofun, fun firings hf => ?_⟩
    cases hf
    refine ⟨_, _, _, rfl, ends.rung (tried events attempts).down, nofun, fun _ he => ?_⟩
    cases he
    rfl
  | finished events attempts ends =>
    refine ⟨events.rung entered.down, nofun, fun _ => ⟨_, rfl, attempts⟩,
      ⟨fun _ => ⟨_, _, rfl⟩, fun _ => rfl⟩, nofun, fun firings hf => ?_⟩
    cases hf
    exact ⟨_, _, _, rfl, ends.rung (tried events attempts).down, fun _ => rfl, nofun⟩

/-- Wherever the loop gets to a step that is not passed over, events stand around its turns. -/
theorem Loop.bracketed {goal : Goal} {steps : List Step} {visits : List Visit}
    {r : Ending Control} (h : Loop app goal steps w visits r) (hw : w.Outside) :
    ∀ x ∈ visits, (x.course = none ↔ passesOver x.here ⟨goal, x.step⟩ = true) ∧
      ∀ c, x.course = some c → c.Bracketed app ⟨goal, x.step⟩ x.here := by
  intro x hx
  obtain ⟨follows, genuine⟩ := h.visited x hx
  have here : x.here.Outside := hw.of_follows follows
  exact ⟨genuine.course_eq_none_iff, fun c hc => (genuine.runs hc).bracketed here⟩

/-- The numbers of steps that are numbered by their place. -/
theorem index_of_numbered (steps : List Step) :
    (numbered steps).map Step.index = List.range steps.length := by
  refine List.ext_getElem (by simp [numbered]) fun i hi _ => ?_
  simp [numbered]

/-- The events of a goal stand around its steps, which are visited in order, each once. -/
structure GoalCourse.Bracketed (app : App) (inv : Invocation) (w : World) (c : GoalCourse) :
    Prop where
  before : Rung app (goalOccasion inv.goal .before) (goalValues inv.goal) (enterGoal inv w)
    c.before c.begun
  -- If a Before goal fails no step is run.
  refused : ∀ e, c.begun.1 = .error e → c.visits = [] ∧ c.looped = none ∧ c.ending.1 = .error e
  -- All steps come after the Before goals.
  looped : c.begun.1 = .ok () → ∃ r, c.looped = some r ∧
    Loop app inv.goal inv.goal.steps c.begun.2 c.visits r
  order : c.visits.map Visit.step <+: inv.goal.steps
  numbers : ∀ steps, inv.goal.steps = numbered steps →
    (c.visits.map fun x => x.step.index) = List.range c.visits.length
  steps : ∀ x ∈ c.visits, (x.course = none ↔ passesOver x.here ⟨inv.goal, x.step⟩ = true) ∧
    ∀ k, x.course = some k → k.Bracketed app ⟨inv.goal, x.step⟩ x.here
  after_iff : c.after.isSome ↔
    c.begun.1 = .ok () ∧ ¬ ∃ x ∈ c.visits, ∃ e, x.Ruins app inv.goal e
  failed : ∀ x ∈ c.visits, ∀ e, x.Ruins app inv.goal e → c.ending.1 = .error e
  -- The After goals come after all steps, and if one fails so does the goal.
  after : ∀ firings, c.after = some firings → ∃ control v r, c.looped = some (.ok control, v) ∧
    Rung app (goalOccasion inv.goal .after) (goalValues inv.goal) v firings r ∧
    (r.1 = .ok () → c.ending.1 = .ok control.unwind) ∧ ∀ e, r.1 = .error e → c.ending.1 = .error e

section

variable {inv : Invocation} {goal : Goal} {steps : List Step} {visits : List Visit}

/-- In a loop that ends without failure no step has failed for good. -/
theorem Loop.not_ruins {control : Control} (h : Loop app goal steps w visits (.ok control, v)) :
    ¬ ∃ x ∈ visits, ∃ e, x.Ruins app goal e := by
  rintro ⟨x, hx, e, hr⟩
  cases h.error_iff.mpr ⟨x, hx, hr⟩

/-- A loop over steps that are numbered by their place visits them in order, each once. -/
theorem Loop.numbers {r : Ending Control} (h : Loop app goal (numbered steps) w visits r) :
    (visits.map fun x => x.step.index) = List.range visits.length := by
  have hp : (visits.map Visit.step).map Step.index <+: List.range steps.length :=
    index_of_numbered steps ▸ h.isPrefix.map Step.index
  have shorter := hp.length_le
  rw [List.prefix_iff_eq_take, List.take_range] at hp
  simp only [List.length_map, List.length_range] at hp shorter
  rw [Nat.min_eq_left shorter, List.map_map] at hp
  exact hp

/-- Every course of a goal that starts outside event goals is bracketed. -/
theorem GoalRuns.bracketed {c : GoalCourse} (h : GoalRuns app inv w c) (hw : w.Outside) :
    c.Bracketed app inv w := by
  have entered : (enterGoal inv w).Outside := hw.enterGoal inv
  have looped {before : List Firing} {visits : List Visit} {u : World} {r : Ending Control}
      (events : Announced app (goalOccasion inv.goal .before) (goalValues inv.goal)
        (enterGoal inv w) before (.ok (), u))
      (steps : Loop app inv.goal inv.goal.steps u visits r) : r.2.Outside :=
    (entered.of_follows events.follows).of_follows steps.follows
  cases h with
  | refused events =>
    refine ⟨events.rung entered.down, fun e he => ?_, nofun, List.nil_prefix, fun _ _ => rfl, ?_,
      ⟨nofun, fun he => nomatch he.1⟩, ?_, nofun⟩
    · cases he
      exact ⟨rfl, rfl, rfl⟩
    · exact fun x hx => absurd hx List.not_mem_nil
    · exact fun x hx => absurd hx List.not_mem_nil
  | failed events steps =>
    refine ⟨events.rung entered.down, nofun, fun _ => ⟨_, rfl, steps⟩, steps.isPrefix,
      fun all ha => Loop.numbers (ha ▸ steps), ?_, ⟨nofun, fun he => ?_⟩, ?_, nofun⟩
    · exact steps.bracketed (entered.of_follows events.follows)
    · obtain ⟨x, hx, hr⟩ := steps.error_iff.mp rfl
      exact absurd ⟨x, hx, _, hr⟩ he.2
    · intro x hx e hr
      exact steps.error_iff.mpr ⟨x, hx, hr⟩
  | disturbed events steps ends =>
    have calm := steps.not_ruins
    refine ⟨events.rung entered.down, nofun, fun _ => ⟨_, rfl, steps⟩, steps.isPrefix,
      fun all ha => Loop.numbers (ha ▸ steps), ?_, ⟨fun _ => ⟨rfl, calm⟩, fun _ => rfl⟩, ?_, ?_⟩
    · exact steps.bracketed (entered.of_follows events.follows)
    · exact fun x hx e hr => absurd ⟨x, hx, e, hr⟩ calm
    · intro firings hf
      cases hf
      refine ⟨_, _, _, rfl, ends.rung (looped events steps).down, nofun, fun _ he => ?_⟩
      cases he
      rfl
  | finished events steps ends =>
    have calm := steps.not_ruins
    refine ⟨events.rung entered.down, nofun, fun _ => ⟨_, rfl, steps⟩, steps.isPrefix,
      fun all ha => Loop.numbers (ha ▸ steps), ?_, ⟨fun _ => ⟨rfl, calm⟩, fun _ => rfl⟩, ?_, ?_⟩
    · exact steps.bracketed (entered.of_follows events.follows)
    · exact fun x hx e hr => absurd ⟨x, hx, e, hr⟩ calm
    · intro firings hf
      cases hf
      exact ⟨_, _, _, rfl, ends.rung (looped events steps).down, fun _ => rfl, nofun⟩

end

section

variable {α : Type} {p : Run α} {post : Ending α → Prop} {depth : Nat}

theorem Meets.withheld {here : Nat} {registry : Handle} {ready : Task → World → Prop}
    (h : p.Meets (inside app here registry ready) post w) (hd : depth ≤ here)
    (hr : here = depth → ∀ t v, ready t v → t.OnTheWay) :
    p.Meets (withholding app depth) post w := by
  refine h.weaken (fun _ _ => trivial) (fun t v ht => ?_) fun _ _ _ _ he => he
  obtain ⟨ha, hv, -, ht⟩ := ht
  exact ⟨ha, hv ▸ hd, fun hdepth => hr (hv.symm.trans hdepth) t v ht⟩

/-- What is begun further inside is out of the question, and callbacks and recoveries begin goals on
the way only. -/
theorem sound_withholding (app : App) (depth : Nat) : (withholding app depth).Sound := by
  rintro t w ⟨rfl, hd, -⟩
  cases t with
  | goal app inv =>
    rcases Nat.lt_or_ge w.engine.stack.length app.config.maxCallDepth with hlt | hge
    · have deeper : depth < (enterGoal inv w).engine.stack.length := by
        rw [depth_enterGoal]
        exact Nat.lt_succ_of_le hd
      exact (meets_goalRun_anyTime inv hlt).withheld (Nat.le_of_lt deeper)
        fun he => absurd he (Nat.ne_of_gt deeper)
    · refine meets_get_bind.mpr ⟨trivial, ?_⟩
      simp only [hge, ↓reduceIte]
      exact (.refl w : w.Follows Eq w)
  | fire app =>
    have h : Clears app (fun t _ => t.OnTheWay) Eq (callBackAll app (runGoal app)) w :=
      (meets_callBackAll (fun _ _ h => h) fun _ _ => trivial).mono fun _ hr => hr.1
    exact Meets.withheld h hd fun _ _ _ ht => ht
  | recovery app site effort =>
    have h : Keeps app (fun t _ => t.OnTheWay) Frame.SameRun
        (recovery app (runGoal app) site effort) w :=
      keeps_recovery (fun _ _ h => h) (fun _ => trivial) fun _ _ _ => trivial
    exact Meets.withheld h hd fun _ _ _ ht => ht

/-- In the goal in which it starts the run begins no goal for an event of a goal or of a step. -/
def Withholds (p : Run α) (w : World) : Prop :=
  ∀ s, Reaches (p, w) s → s.2.engine.stack.length = w.engine.stack.length →
    ∀ app inv next, s.1 = await (.goal app inv) next → inv.OnTheWay

theorem Meets.withholds (h : p.Meets (withholding app w.engine.stack.length) post w) :
    Withholds p w := by
  intro s hr hd app' inv next hs
  have hm := (hr.meets (sound_withholding app _) h trivial).1
  rw [hs] at hm
  obtain ⟨⟨-, -, ht⟩, -⟩ := hm
  exact ht hd

/-- Between the events of a step its turns announce none of them again. -/
theorem withholds_attemptAll (app : App) (site : Site) (w : World) :
    Withholds (attemptAll app site) w := by
  have h : (attemptAll app site).Meets (withholding app w.engine.stack.length)
      (fun e => w.Follows Frame.SameRun e.2) w :=
    ⟨⟨rfl, Nat.le_refl _, fun _ => trivial⟩, fun _ he => he⟩
  exact h.withholds

/-- Nor does what was put off announce any. -/
theorem withholds_runDeferred (app : App) (w : World) :
    Withholds (runDeferred app (runGoal app)) w := by
  have h : Keeps app (fun t _ => t.OnTheWay) Eq (runDeferred app (runGoal app)) w :=
    keeps_runDeferred (fun _ _ h => h) fun _ => trivial
  exact (Meets.withheld h (Nat.le_refl _) fun _ _ _ ht => ht).withholds

end

/-- Outside event goals a goal that has room has a course, in which its events stand around its
steps and the events of each step around all its turns; neither the turns nor what was put off
announce any of them again. Modules are asked to leave the in-event flags and the log level alone,
so that none of them makes it seem that an event goal runs. -/
theorem goals_are_bracketed (app : App) (inv : Invocation) {w : World}
    (hd : w.engine.registry.Discreet) (hc : w.engine.context.inEvent = false) :
    (app.config.maxCallDepth ≤ w.engine.stack.length → (runGoal app inv).run w =
      (.error (.stackOverflow app.config.maxCallDepth w.engine.stack.trace), w)) ∧
    (∃ c, GoalRuns app inv w c) ∧
    (∀ c, GoalRuns app inv w c → c.Bracketed app inv w ∧
      (w.engine.stack.length < app.config.maxCallDepth → (runGoal app inv).run w = c.ending)) ∧
    (∀ site v, Withholds (attemptAll app site) v ∧
      Withholds (runDeferred app (runGoal app)) v) := by
  have hw : w.Outside := ⟨hc, hd⟩
  refine ⟨run_runGoal_of_full, exists_goalRuns app inv w, fun c h => ⟨h.bracketed hw, h.run_eq⟩, ?_⟩
  exact fun site v => ⟨withholds_attemptAll app site v, withholds_runDeferred app v⟩

/-- A goal that is greeted before it starts. -/
theorem goals_are_bracketed_greeted :
    let greet : EventBinding := {
      scope := .goal, eventType := .before, goalToCall := { name := "Greet" } }
    let goal : Goal := .new "Work" [.new "variable" {
      function := "append", parameters := [⟨"name", .text "x"⟩, ⟨"value", .text "!"⟩] }]
    let app : App := ⟨{ events := [greet] }, {}⟩
    let w : World := ⟨.start 0 ⟨.withBuiltins, 0⟩ false, {}⟩
    w.engine.registry.Discreet ∧ w.engine.context.inEvent = false ∧
      ∃ c, GoalRuns app { goal } w c ∧ c.Bracketed app { goal } w ∧
        (runGoal app { goal }).run w = c.ending := by
  intro greet goal app w
  have hd : w.engine.registry.Discreet := Handle.discreet_withBuiltins 0
  obtain ⟨-, ⟨c, hr⟩, bracketed, -⟩ := goals_are_bracketed app { goal } hd rfl
  obtain ⟨hb, ends⟩ := bracketed c hr
  exact ⟨hd, rfl, c, hr, hb, ends (by decide)⟩

end Run

end GoalScript
