import GoalScript.Proofs.Termination
import GoalScript.Proofs.Tidiness

namespace GoalScript

def Entry.startedGoal? : Entry → Option String
  | .goalStarted name _ => some name
  | _ => none

namespace Run

variable {app : App} {w : World}

theorem meets_callBack (e : PendingEvent) (hw : w.Additive) :
    (callBack app (runGoal app) e).Meets (accounting app)
      (fun r => Accounted app (.calling e) w w.Calm r.2.Calm r) w := by
  rw [callBack_eq]
  refine meets_bind.mpr (meets_asEvent (meets_bind.mpr ?_))
  have inside : (tidiness app).Here (w.setInEvent true true) := here_tidiness.mpr hw
  refine Meets.mono (Discipline.keeps_prepare e.call e.details (some e.origin) _ inside) ?_
  rintro ⟨x | inv, u⟩ hu
  all_goals obtain ⟨t, prepared, leads⟩ := hu.accounts
  · refine ⟨hu.additive, _, prepared.unprepared, fun none => leads ?_⟩
    exact (add_eq_zero.mp none).1
  · refine ⟨⟨rfl, hu.additive⟩, ?_⟩
    rintro ⟨result, v⟩ ⟨⟨additive, t', ran, leads'⟩, full⟩
    have kept (none : (t + t').stranded = 0) (calm : w.Calm) : v.Calm := by
      have ⟨none, none'⟩ := add_eq_zero.mp none
      exact leads' none' (leads none calm)
    by_cases room : Full app u
    · obtain ⟨x, rfl⟩ := full inv rfl room
      refine ⟨additive, _, prepared.refused room ran, fun none => kept ?_⟩
      simpa using none
    · have started := prepared.started room ran
      have none_left (none : (t + t' + { started := {e} } + e.verdict result).stranded = 0) :
          (t + t').stranded = 0 := by simpa using none
      cases result with
      | error x => exact ⟨additive, _, started, fun none => kept (none_left none)⟩
      | ok control => exact ⟨additive, _, started, fun none => kept (none_left none)⟩

/-- Events that were taken are served one by one. Those behind one whose callback was waited for and
failed are given up. -/
theorem meets_serving (events : List PendingEvent) (hw : w.Additive) :
    (events.forM (serve app)).Meets (accounting app)
      (fun r => Accounted app (.serving events) w w.Calm r.2.Calm r) w := by
  induction events generalizing w with
  | nil => exact meets_pure.mpr ⟨hw, {}, .served w, fun _ => id⟩
  | cons e events ih =>
    cases hs : e.subscription.awaited with
    | true =>
      have called : serve app e = callBack app (runGoal app) e := if_pos hs
      refine meets_bind.mpr (called ▸ (meets_callBack e hw).mono ?_)
      rintro ⟨x | _, v⟩ hv
      · obtain ⟨t, body, leads⟩ := hv.accounts
        refine ⟨hv.additive, _, body.failed hs, fun none => leads ?_⟩
        exact (add_eq_zero.mp none).1
      · exact (ih hv.additive).mono fun r hr => hv.trans hr (.called hs)
    | false =>
      have later : serve app e = modifyContext (·.defer e) := if_neg (by simp [hs])
      refine meets_bind.mpr (later ▸ meets_update.mpr ⟨trivial, ?_⟩)
      have rest := ih (w := w.defer e) hw
      refine rest.mono fun r hr => ⟨hr.additive, ?_⟩
      obtain ⟨t, rest, leads⟩ := hr.accounts
      exact ⟨t, rest.deferred hs, leads⟩

/-- What was put off is called back to the last event, whatever comes of each. -/
theorem meets_clearing (events : List PendingEvent) (hw : w.Additive) :
    (events.forM fun e => do let _ ← outcome (callBack app (runGoal app) e)).Meets
      (accounting app) (fun r => Accounted app (.clearing events) w w.Calm r.2.Calm r) w := by
  induction events generalizing w with
  | nil => exact meets_pure.mpr ⟨hw, {}, .cleared w, fun _ => id⟩
  | cons e events ih =>
    refine meets_bind.mpr (meets_bind.mpr (meets_outcome.mpr ((meets_callBack e hw).mono ?_)))
    exact fun d hd => (ih hd.additive).mono fun r hr => hd.trans hr .past

/-- Once what was put off has been called back nothing waits any more. -/
theorem accountable_runDeferred (hw : w.Additive) :
    Accountable app (runDeferred app (runGoal app)) World.Calm (fun r => r.2.waiting = 0) w := by
  by_cases hd : w.engine.context.deferred = []
  · refine accountable_get_bind ?_
    rw [hd]
    refine accountable_done hw fun calm => ?_
    exact World.waiting_eq_zero.mpr ⟨calm, hd⟩
  · refine meets_get_bind.mpr ⟨trivial, ?_⟩
    split
    · contradiction
    · refine meets_bind.mpr (meets_update.mpr ⟨trivial, ?_⟩)
      refine meets_bind.mpr (meets_update.mpr ⟨trivial, ?_⟩)
      have cleared : (w.clear app.config.eventDelay).Additive := hw
      refine (meets_clearing w.engine.context.deferred cleared).mono fun r hr => ?_
      obtain ⟨t, accounts, -⟩ := hr.accounts
      refine ⟨hr.additive, t, accounts.clear hd, fun _ calm => accounts.clears ?_⟩
      exact World.waiting_eq_zero.mpr ⟨calm, rfl⟩

theorem tidy_runDeferred : (tidiness app).Keeps (runDeferred app (runGoal app)) := fun _ here =>
  (accountable_runDeferred here.modules).mono id fun _ none => (World.waiting_eq_zero.mp none).1

/-- A goal that there is no room for fails. -/
theorem meets_goalRun_full {c : Contract} {nested : Nested} {inv : Invocation} (full : Full app w)
    (hc : c.always w) : (goalRun app nested inv).Meets c (fun r => ∃ x, r.1 = .error x) w := by
  have full : app.config.maxCallDepth ≤ w.engine.stack.length := full
  refine meets_get_bind.mpr ⟨hc, ?_⟩
  simp only [full, ↓reduceIte]
  exact ⟨_, rfl⟩

/-- A task accounts for what its program does. -/
theorem tidy_grants {t : Task} (h : (tidiness app).KeepsAt t.program w) (calm : t.Ready w → w.Calm)
    (fails : ∀ inv, t = .goal app inv → Full app w →
      t.program.Meets (accounting app) (fun r => ∃ x, r.1 = .error x) w) :
    t.program.Meets (accounting app) ((accounting app).grants t w) w := by
  have accounted (r : Ending Control) (hr : Accounted app (.run t.program) w w.Calm r.2.Calm r) :
      Accounted app (.run (await t done)) w (t.Ready w) r.2.Calm r := by
    obtain ⟨t', body, leads⟩ := hr.accounts
    exact ⟨hr.additive, t', body.await, fun none ready => leads none (calm ready)⟩
  by_cases full : ∃ inv, t = .goal app inv ∧ Full app w
  · obtain ⟨inv, ht, full⟩ := full
    exact (Meets.and h (fails inv ht full)).mono fun r hr => ⟨accounted r hr.1, fun _ _ _ => hr.2⟩
  · exact Meets.mono h fun r hr => ⟨accounted r hr, fun inv ht hw => absurd ⟨inv, ht, hw⟩ full⟩

/-- Every task accounts for its events, as the tasks that it waits for do. -/
theorem sound_accounting (app : App) : (accounting app).Sound := by
  rintro t w ⟨rfl, hw⟩
  have here (app : App) : (tidiness app).Here w := here_tidiness.mpr hw
  cases t with
  | goal app inv =>
    have tidy := Discipline.keeps_goalRun tidy_runDeferred inv w (here app)
    exact tidy_grants tidy id fun _ _ full => meets_goalRun_full full trivial
  | fire app =>
    refine meets_bind.mpr (meets_get_bind.mpr ⟨trivial, ?_⟩)
    refine meets_bind.mpr (meets_set.mpr ⟨trivial, ?_⟩)
    have taken : w.take.Additive := hw
    refine meets_bind.mpr ((meets_serving w.engine.memory.pending taken).mono ?_)
    rintro ⟨x | _, v⟩ hr
    all_goals
      obtain ⟨t, body, leads⟩ := hr.accounts
      exact ⟨⟨hr.additive, t, body.fire, fun none _ => leads none rfl⟩, nofun⟩
  | recovery app site effort =>
    exact tidy_grants (Discipline.keeps_recovery trivial effort w (here app)) id nofun

theorem accountable_bind_of {α β : Type} {p : Run α} {f : α → Run β} {after : Ending β → Prop}
    (hp : (tidiness app).Keeps p) (hw : w.Additive)
    (hf : ∀ a v, v.Additive → Accountable app (f a) World.Calm after v)
    (he : ∀ x v, after (.error x, v)) : Accountable app (p >>= f) World.Calm after w :=
  Accountable.bind (hp w (here_tidiness.mpr hw)) hf fun x v _ => he x v

/-- After a session that succeeds nothing waits any more. -/
theorem accountable_session (names : List String) (hw : w.Additive) :
    Accountable app (session app names) World.Calm
      (fun r => ∀ a, r.1 = .ok a → r.2.waiting = 0) w := by
  have found (name : String) : (tidiness app).Keeps (findGoal app name) :=
    Discipline.keeps_findGoal name
  have all := Discipline.keeps_mapM found
  refine accountable_bind_of (all _) hw (fun goals v hv => ?_) fun _ _ => nofun
  refine accountable_bind_of (Discipline.keeps_runAll _ _) hv (fun _ v hv => ?_) fun _ _ => nofun
  refine accountable_bind_of (Discipline.keeps_announce _ _) hv (fun _ v hv => ?_) fun _ _ => nofun
  refine accountable_bind_of (Discipline.keeps_runAll _ _) hv (fun _ v hv => ?_) fun _ _ => nofun
  refine accountable_bind_of (Discipline.keeps_announce _ _) hv (fun _ v hv => ?_) fun _ _ => nofun
  refine (accountable_runDeferred hv).bind (fun _ v hv => ?_) fun _ _ _ => nofun
  exact accountable_done hv fun none _ _ => none

/-- In a session every variable event that waits or is queued is called back exactly once, is given
up since a callback that was waited for has failed before it, or waits at the end as well. Nothing
waits after a session that succeeds, unless the parameters of a call could not all be bound; and if
no callback has failed the goals of all events have begun. -/
theorem variable_events_are_accounted_for (app : App) (names : List String)
    (bottom : w.engine.stack = []) (additive : w.engine.registry.Additive)
    (empty : w.engine.memory.pending = []) :
    let r := (session app names).run w
    ∃ t, Accounts app (.run (session app names)) w t r ∧
      w.waiting + t.queued = t.started + t.unstarted + t.lost + r.2.waiting ∧
      t.unstarted ≤ t.failed ∧ (t.Patient → t.lost = 0) ∧
      ∀ result, r.1 = .ok result → t.stranded = 0 →
        r.2.engine.memory.pending = [] ∧ r.2.engine.context.deferred = [] ∧
          (t.failed = 0 → t.started = w.waiting + t.queued) := by
  intro r
  have entry : Entry app (session app names) := .session names
  obtain ⟨-, t, accounts, leads⟩ := (entry.ends bottom additive.discreet).meets
    (sound_accounting app) (accountable_session names additive)
  have balance : 0 + w.waiting + t.queued = t.started + t.unstarted + t.lost + r.2.waiting :=
    accounts.balances
  rw [zero_add] at balance
  refine ⟨t, accounts, balance, accounts.unstarted_le, accounts.lost_eq_zero, ?_⟩
  intro result ended none
  have clear : r.2.waiting = 0 := leads none empty result ended
  obtain ⟨pending, deferred⟩ := World.waiting_eq_zero.mp clear
  refine ⟨pending, deferred, fun succeeded => ?_⟩
  have unstarted : t.unstarted = 0 := by simpa [succeeded] using accounts.unstarted_le
  have lost : t.lost = 0 := accounts.lost_eq_zero fun e member => by simp [succeeded] at member
  simpa [clear, unstarted, lost] using balance.symm

/-- A write for which one goal is called back at once and another one later. -/
theorem variable_events_are_accounted_for_write :
    let subscribe (goal : String) (wait : Bool) : Step := .new "variable" {
      function := "subscribe"
      parameters := [⟨"name", .text "x"⟩, ⟨"event", .text "create"⟩, ⟨"goal", .text goal⟩,
        ⟨"wait", .bool wait⟩] }
    let write : Step := .new "variable" {
      function := "set", parameters := [⟨"name", .text "x"⟩, ⟨"value", .int 1⟩] }
    let library := Library.ofFile {
      goals := [.new "Main" [subscribe "Now" true, subscribe "Later" false, write],
        .new "Now" [], .new "Later" []] }
    let app : App := ⟨library, {}⟩
    let w : World := ⟨.start 0 ⟨.withBuiltins, 0⟩ false, {}⟩
    let r := (session app ["Main"]).run w
    r.1.isOk = true ∧ ∃ t, Accounts app (.run (session app ["Main"])) w t r ∧
      t.queued = t.started + t.unstarted + t.lost := by
  intro subscribe write library app w r
  have ended : r.1.isOk = true ∧ r.2.waiting.card = 0 := by decide +kernel
  obtain ⟨ok, clear⟩ := ended
  have clear : ((session app ["Main"]).run w).2.waiting = 0 := Multiset.card_eq_zero.mp clear
  have start : w.waiting = 0 := rfl
  obtain ⟨t, accounts, balance, -⟩ := variable_events_are_accounted_for (w := w) app ["Main"] rfl
    (Handle.additive_withBuiltins 0) rfl
  rw [start, clear, zero_add, add_zero] at balance
  exact ⟨ok, t, accounts, balance⟩

/-- Two events are queued by a write, and the callback for the first one fails. The write's step
ignores that, and the session succeeds. For the second event no goal is ever started. -/
theorem variable_events_are_lost :
    let probe : Module := {
      name := "probe"
      functions := ["fail", "record"]
      call := fun function =>
        if function = "fail" then Call.failStep { message := "first failed" } else pure .nothing }
    let subscribe (goal : String) : Step := .new "variable" {
      function := "subscribe"
      parameters := [⟨"name", .text "x"⟩, ⟨"event", .text "create"⟩, ⟨"goal", .text goal⟩] }
    let write : Step := { Step.new "variable" {
      function := "set", parameters := [⟨"name", .text "x"⟩, ⟨"value", .int 1⟩] } with
      errorHandlers := [{ ignoreError := true }] }
    let record : Step := .new "probe" { function := "record" }
    let library := Library.ofFile {
      goals := [.new "Main" [subscribe "First", subscribe "Second", write, record],
        .new "First" [.new "probe" { function := "fail" }], .new "Second" [record]] }
    let app : App := ⟨library, {}⟩
    let w : World := ⟨.start 0 ⟨Registry.withBuiltins.register "probe" probe, 0⟩ false, {}⟩
    let p := session app ["Main"]
    let r := p.run w
    (∃ s, Reaches (p, w) s ∧
      s.2.engine.memory.pending.map (·.subscription.goalName) = ["First", "Second"]) ∧
    r.1.isOk = true ∧ r.2.waiting = 0 ∧
    r.2.host.journal.filterMap GoalScript.Entry.startedGoal? = ["First", "Main"] := by
  intro probe subscribe write record library app w p r
  have ended : r.1.isOk = true ∧ r.2.waiting.card = 0 ∧
      r.2.host.journal.filterMap GoalScript.Entry.startedGoal? = ["First", "Main"] := by
    decide +kernel
  obtain ⟨ok, clear, started⟩ := ended
  refine ⟨⟨_, reaches_advance 48 (p, w), by decide +kernel⟩, ok, ?_, started⟩
  exact Multiset.card_eq_zero.mp clear

end Run

end GoalScript
