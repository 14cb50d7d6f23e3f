import GoalScript.Proofs.Progress
import GoalScript.Run.Session

namespace GoalScript

theorem Context.enterScope_inEvent (c : Context) (comment : Option String) :
    (c.enterScope comment).inEvent = c.inEvent := by
  unfold enterScope
  split <;> rfl

namespace World

variable {v w : World}

theorem like_enterStep (step : Step) (w : World) :
    CallStack.Like Frame.SameRun w.engine.stack (Run.enterStep step w).engine.stack :=
  .modifyTop fun _ => ⟨rfl, rfl, rfl⟩

theorem Follows.leaveStep {step : Step} (h : (Run.enterStep step w).Follows Frame.SameRun v) :
    w.Follows Frame.SameRun (Run.leaveStep w v) where
  stack := (like_enterStep step w).trans (h.stack.trans (.modifyTop fun _ => ⟨rfl, rfl, rfl⟩))
  registry := h.registry
  replies := h.replies
  flags hd := by
    obtain ⟨hc, hm⟩ := Prod.ext_iff.mp (h.flags hd)
    obtain ⟨hm, -⟩ := Prod.ext_iff.mp hm
    have hc : v.engine.context.inEvent = w.engine.context.inEvent :=
      hc.trans (Context.enterScope_inEvent _ _)
    have hm : v.engine.memory.inEvent = w.engine.memory.inEvent := hm
    simp only [World.flags, Run.leaveStep, World.setLogLevel, hc, hm]
  pending hd hi hp := h.pending hd hi hp

end World

namespace Run

variable {app : App} {ready : Task → World → Prop} {w : World}

/-- An answer uses up a reply, so that fewer turns are left. -/
theorem turnsLeft_lt_of_answer (site : Site) (effort : Effort) {v : World}
    (h : v.host.replies.length < w.host.replies.length) :
    turnsLeft site effort v < turnsLeft site effort w := by
  unfold turnsLeft
  omega

/-- A retry is one of those that the step allows, so that fewer turns are left. -/
theorem turnsLeft_lt_of_retry {site : Site} {effort : Effort} {e : EngineError} {v : World}
    (h : v.host.replies.length ≤ w.host.replies.length)
    (hr : effort.retries < site.step.maxRetries) :
    turnsLeft site (effort.afterRetry e) v < turnsLeft site effort w := by
  simp only [turnsLeft, Effort.afterRetry]
  omega

section

variable (hg : ∀ inv v, inv.OnTheWay → ready (.goal app inv) v) (hf : ∀ v, ready (.fire app) v)

include hg hf

/-- A recovery goes on only with a recovery that has fewer turns left. -/
theorem keeps_recovery {site : Site} {effort : Effort}
    (hr : ∀ effort' v, turnsLeft site effort' v < turnsLeft site effort w →
      ready (.recovery app site effort') v) :
    Keeps app ready Frame.SameRun (recovery app (runGoal app) site effort) w := by
  refine (meets_turn hg hf).bind_inside (fun _ h => h.follows) (fun _ _ h => h.follows) ?_
  intro verdict v h
  have hv : w.Follows Frame.SameRun v := h.follows
  cases verdict with
  | settled control => exact meets_pure.mpr hv
  | answered =>
    have hlt := turnsLeft_lt_of_answer site effort (h.answered rfl)
    exact Meets.mono (meets_await rfl (hr _ _ hlt)) fun _ he => hv.trans he
  | retry e =>
    have hlt := turnsLeft_lt_of_retry (e := e) hv.replies (h.retry e rfl)
    exact Meets.mono (meets_await rfl (hr _ _ hlt)) fun _ he => hv.trans he
  | surrender e => exact Meets.mono (keeps_surrender hg hf) fun _ he => hv.trans he.of_eq

end

theorem keeps_recordDone {site : Site} : Keeps app ready Eq (recordDone site) w := by
  unfold recordDone
  split
  · refine keeps_get_bind ?_
    exact (keeps_setSetting _ _ _).bind fun _ _ _ => keeps_note _
  · exact keeps_pure

theorem follows_closeStep (step : Step) (w : World) :
    w.Follows Frame.SameRun (closeStep step w) := by
  unfold closeStep
  split
  · exact w.follows_modifyStack fun _ => ⟨rfl, rfl, rfl⟩
  · exact .refl w

section

variable (hg : ∀ inv v, ready (.goal app inv) v) (hf : ∀ v, ready (.fire app) v)
  (hr : ∀ site v, ready (.recovery app site {}) v)

include hg hf hr

theorem keeps_performStep {site : Site} :
    Keeps app ready Frame.SameRun (performStep app (runGoal app) site) w := by
  refine (keeps_announce hg hf).of_eq.bind fun _ u _ => ?_
  refine (keeps_note _).of_eq.bind fun _ u _ => ?_
  have attempts : Keeps app ready Frame.SameRun
      (afterwards (attemptAll app site) (closeStep site.step)) u := by
    refine meets_afterwards.mpr (Meets.mono (meets_await rfl (hr site u)) ?_)
    intro e (he : u.Follows Frame.SameRun e.2)
    have hc : u.Follows Frame.SameRun (closeStep site.step e.2) :=
      he.trans (follows_closeStep site.step e.2)
    exact ⟨Nat.le_of_eq hc.stack.length_eq, hc⟩
  refine attempts.bind fun control _ _ => ?_
  refine keeps_recordDone.of_eq.bind fun _ _ _ => ?_
  refine (keeps_announce hg hf).of_eq.bind fun _ _ _ => ?_
  exact (keeps_runDeferred (fun inv v _ => hg inv v) hf).of_eq.bind fun _ _ _ => keeps_pure

/-- Of the stack a step changes the frame of its goal only, and it takes back its log level. -/
theorem keeps_runStep {site : Site} :
    Keeps app ready Frame.SameRun (runStep app (runGoal app) site) w := by
  refine keeps_get_bind ?_
  split
  · exact keeps_pure
  · have hl := (World.like_enterStep site.step w).length_eq
    refine meets_bind.mpr (meets_update.mpr ⟨Nat.le_of_eq hl, meets_afterwards.mpr ?_⟩)
    have h : Keeps app ready Frame.SameRun (performStep app (runGoal app) site)
      (enterStep site.step w) := keeps_performStep hg hf hr
    rw [Keeps, hl] at h
    refine h.mono fun e he => ⟨?_, he.leaveStep⟩
    exact Nat.le_of_eq he.leaveStep.stack.length_eq

omit hr in
theorem keeps_afterStep {goal : Goal} (result : Except EngineError Control) :
    Keeps app ready Eq (afterStep app (runGoal app) goal result) w := by
  cases result with
  | ok control => exact keeps_pure
  | error e =>
    refine Keeps.bind (Keeps.outcome ?_) fun r _ _ => ?_
    · exact keeps_announceError (fun inv v _ => hg inv v) hf ⟨nofun, nofun⟩
    cases r with
    | ok _ => exact keeps_pure
    | error e' =>
      dsimp only
      split
      · exact keeps_pure
      · exact keeps_throw

theorem keeps_runSteps {goal : Goal} (steps : List Step) :
    Keeps app ready Frame.SameRun (runSteps app (runGoal app) goal steps) w := by
  induction steps generalizing w with
  | nil => exact keeps_pure
  | cons step rest ih =>
    refine (keeps_runStep hg hf hr).outcome.bind fun result _ _ => ?_
    refine (keeps_afterStep hg hf result).of_eq.bind fun control _ _ => ?_
    cases control with
    | proceed => exact ih
    | exit levels => exact keeps_pure
    | returned v => exact keeps_pure

/-- Of the stack the body of a goal changes the frame of the goal only. -/
theorem keeps_goalBody {goal : Goal} :
    Keeps app ready Frame.SameRun (goalBody app (runGoal app) goal) w := by
  refine (keeps_announce hg hf).of_eq.bind fun _ _ _ => ?_
  refine (keeps_runSteps hg hf hr goal.steps).bind fun _ _ _ => ?_
  exact (keeps_announce hg hf).of_eq.bind fun _ _ _ => keeps_pure

end

/-- Injections change nothing but the registry, and no module of it. -/
theorem inject_eq (goal : Goal) (w : World) : ∃ registry stamp,
    inject goal w =
      { engine := { w.engine with registry }, host := { w.host with freshStamp := stamp } } ∧
    registry.registry.modules = w.engine.registry.registry.modules := by
  unfold inject
  generalize goal.injections = injections
  induction injections generalizing w with
  | nil => exact ⟨w.engine.registry, w.host.freshStamp, rfl, rfl⟩
  | cons i rest ih =>
    obtain ⟨registry, stamp, he, hm⟩ := ih _
    exact ⟨registry, stamp, he, hm⟩

theorem inject_of_isEmpty {goal : Goal} (h : goal.injections.isEmpty) (w : World) :
    inject goal w = w := by
  rw [inject, List.isEmpty_iff.mp h]
  rfl

/-- A goal starts in the world of its call, with a frame on top. -/
theorem enterGoal_eq (inv : Invocation) (w : World) : ∃ registry host,
    enterGoal inv w =
      { engine := { w.engine with
          registry
          context := w.engine.context.enterScope inv.goal.comment
          stack := { goal := inv.goal, origin := inv.origin, locals := inv.locals } ::
            w.engine.stack }
        host } ∧
    host.replies = w.host.replies ∧
    registry.registry.modules = w.engine.registry.registry.modules ∧
    (inv.goal.injections.isEmpty → registry = w.engine.registry) := by
  obtain ⟨registry, stamp, he, hm⟩ := inject_eq inv.goal w
  simp only [enterGoal, he]
  refine ⟨registry, _, rfl, rfl, hm, fun hi => ?_⟩
  rw [inject_of_isEmpty hi] at he
  exact (congrArg (fun v => v.engine.registry) he).symm

theorem modules_enterGoal (inv : Invocation) (w : World) :
    (enterGoal inv w).engine.registry.registry.modules =
      w.engine.registry.registry.modules := by
  obtain ⟨registry, host, he, -, hm, -⟩ := enterGoal_eq inv w
  rw [he]
  exact hm

theorem depth_enterGoal (inv : Invocation) (w : World) :
    (enterGoal inv w).engine.stack.length = w.engine.stack.length + 1 := by
  obtain ⟨registry, host, he, -⟩ := enterGoal_eq inv w
  rw [he]
  rfl

/-- Whatever a goal's run has left of the world it entered, its end gives back the world before. -/
theorem follows_leaveGoal {inv : Invocation} {v : World}
    (h : (enterGoal inv w).Follows Frame.SameRun v) :
    w.Follows Eq (leaveGoal inv.goal w v) := by
  obtain ⟨registry, host, he, ha, hm, hi⟩ := enterGoal_eq inv w
  rw [he] at h
  refine ⟨?stack, ?registry, ?replies, fun hd => ?flags, fun hd hin hp => ?pending⟩
  case stack =>
    have hs : v.engine.stack.tail = w.engine.stack := h.stack.tail_eq
    simp only [leaveGoal, hs]
    exact .refl _
  case registry =>
    simp only [leaveGoal]
    split
    · rename_i hempty
      exact h.registry.trans (hi hempty)
    · rfl
  case replies => exact Nat.le_trans h.replies (Nat.le_of_eq (congrArg List.length ha))
  case flags =>
    obtain ⟨hc, hv⟩ := Prod.ext_iff.mp (h.flags fun entry hentry => hd entry (hm ▸ hentry))
    have hc : v.engine.context.inEvent = w.engine.context.inEvent :=
      hc.trans (Context.enterScope_inEvent _ _)
    have hm : v.engine.memory.inEvent = w.engine.memory.inEvent := congrArg Prod.fst hv
    simp only [World.flags, leaveGoal, World.setLogLevel, World.record, hc, hm]
  case pending => exact h.pending (fun entry hentry => hd entry (hm ▸ hentry)) hin hp

section

variable (hg : ∀ inv v, ready (.goal app inv) v)
  (hf : ∀ v, ready (.fire app) v) (hr : ∀ site v, ready (.recovery app site {}) v)

include hg hf hr

/-- A goal that has room runs inside its own frame, and leaves what it finds. -/
theorem meets_goalRun {inv : Invocation} (h : w.engine.stack.length < app.config.maxCallDepth) :
    (goalRun app (runGoal app) inv).Meets
      (inside app (enterGoal inv w).engine.stack.length (enterGoal inv w).engine.registry ready)
      (fun e => w.Follows Eq e.2) w := by
  have deeper : w.engine.stack.length ≤ (enterGoal inv w).engine.stack.length := by
    rw [depth_enterGoal]
    exact Nat.le_succ _
  refine meets_get_bind.mpr ⟨deeper, ?_⟩
  simp only [Nat.not_le.mpr h, ↓reduceIte]
  refine meets_bind.mpr (meets_update.mpr ⟨Nat.le_refl _, meets_afterwards.mpr ?_⟩)
  refine Meets.mono (keeps_goalBody hg hf hr) fun e he => ?_
  have hv : w.Follows Eq (leaveGoal inv.goal w e.2) := follows_leaveGoal he
  exact ⟨Nat.le_trans (Nat.le_of_eq hv.stack.length_eq) deeper, hv⟩

omit hr

omit hf in
theorem keeps_runAll (result : Option Value) (goals : List Goal) :
    Keeps app ready Eq (runAll app result goals) w := by
  induction goals generalizing result w with
  | nil => exact keeps_pure
  | cons goal rest ih =>
    exact (keeps_runGoal (hg _ _)).bind fun control _ _ => ih (resultOf control)

theorem keeps_session (names : List String) : Keeps app ready Eq (session app names) w := by
  refine (keeps_mapM (fun _ _ => keeps_findGoal _) _).bind fun goals _ _ => ?_
  refine (keeps_runAll hg _ _).bind fun _ _ _ => ?_
  refine (keeps_announce hg hf).bind fun _ _ _ => ?_
  refine (keeps_runAll hg _ _).bind fun result _ _ => ?_
  refine (keeps_announce hg hf).bind fun _ _ _ => ?_
  exact (keeps_runDeferred (fun inv v _ => hg inv v) hf).bind fun _ _ _ => keeps_pure

end

end Run

end GoalScript
