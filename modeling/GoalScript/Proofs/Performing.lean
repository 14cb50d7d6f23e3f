import GoalScript.Proofs.Leaving

namespace GoalScript

def anyTime (_ : Task) (_ : World) : Prop := True

namespace Run

variable {α : Type} {app : App} {top : Frame → Frame → Prop} {depth : Nat} {w : World}

theorem clears_callBackAll_anyTime : Clears app anyTime Eq (callBackAll app (runGoal app)) w :=
  (meets_callBackAll (fun _ _ _ => trivial) fun _ _ => trivial).mono fun _ hr => hr.1

/-- Callbacks are begun with nothing to call back for, and no recoveries at all. -/
def callsBackNothing : Task → World → Prop
  | .goal .., _ => True
  | .fire _, v => v.Idle
  | .recovery .., _ => False

theorem clears_callBackAll : Clears app callsBackNothing Eq (callBackAll app (runGoal app)) w :=
  (meets_callBackAll (fun _ _ _ => trivial) fun _ hv => hv).mono fun _ hr => hr.1

theorem keeps_recovery_anyTime {site : Site} {effort : Effort} :
    Keeps app anyTime Frame.SameRun (recovery app (runGoal app) site effort) w :=
  keeps_recovery (fun _ _ _ => trivial) (fun _ => trivial) fun _ _ _ => trivial

theorem meets_goalRun_anyTime (inv : Invocation)
    (h : w.engine.stack.length < app.config.maxCallDepth) :
    (goalRun app (runGoal app) inv).Meets
      (inside app (enterGoal inv w).engine.stack.length (enterGoal inv w).engine.registry anyTime)
      (fun e => w.Follows Eq e.2) w :=
  meets_goalRun (fun _ _ => trivial) (fun _ => trivial) (fun _ _ => trivial) h

def Runner.Leaves (goal : Runner) (app : App) (depth : Nat) : Prop :=
  ∀ inv (v : World), v.engine.stack.length = depth → v.Follows Eq (goal app inv v).2

namespace Runner.Leaves

variable {goal : Runner} {ready : Task → World → Prop} {t : Task}

theorem quietly {registry : Handle} (hg : goal.Leaves app depth)
    (h : (inside app depth registry callsBackNothing).owes t w) :
    (t.start w).Follows t.top (quietly goal t w).2 := by
  obtain ⟨ha, hw, -, hr⟩ := h
  cases t with
  | goal app' inv =>
    obtain rfl : app' = app := ha
    exact hg inv w hw
  | fire app' =>
    have idle : w.Idle := hr
    exact idle.take_follows
  | recovery app' site effort => exact hr.elim

/-- Callbacks follow on the world in which all that was queued has been taken. -/
theorem fire (hg : goal.Leaves app w.engine.stack.length) :
    w.take.Follows Eq (exec (Run.quietly goal) (callBackAll app (runGoal app)) w).2 := by
  exact Meets.ending clears_callBackAll fun _ _ => hg.quietly

theorem carryOut {again : App → Site → Effort → World → Ending Control} {registry : Handle}
    (hg : goal.Leaves app depth) (h : (inside app depth registry ready).owes t w)
    (ha : ∀ site effort, w.Follows Frame.SameRun (again app site effort w).2) :
    (t.start w).Follows t.top (carryOut goal again t w).2 := by
  obtain ⟨rfl, rfl, -, -⟩ := h
  cases t with
  | goal app inv => exact hg inv w rfl
  | fire app => exact hg.fire
  | recovery app site effort => exact ha site effort

theorem recoverWithin (hg : goal.Leaves app w.engine.stack.length) (turns : Nat) {site : Site}
    {effort : Effort} :
    w.Follows Frame.SameRun (recoverWithin goal turns app site effort w).2 := by
  induction turns generalizing site effort w with
  | zero => exact .refl w
  | succ turns ih =>
    exact Meets.ending keeps_recovery_anyTime fun t v ht =>
      hg.carryOut ht fun site effort => ih (ht.2.1.symm ▸ hg)

theorem carryOutWith {registry : Handle} (hg : goal.Leaves app depth)
    (h : (inside app depth registry ready).owes t w) :
    (t.start w).Follows t.top (carryOutWith goal t w).2 :=
  hg.carryOut h fun _ _ => (h.2.1.symm ▸ hg).recoverWithin _

end Runner.Leaves

/-- Goals with as much room as there is inside the deepest stack leave what they find. -/
theorem leaves_goalWithin {room : Nat} (h : app.config.maxCallDepth - depth = room) :
    (goalWithin room).Leaves app depth := by
  induction room generalizing depth with
  | zero => exact fun _ v _ => .refl v
  | succ room ih =>
    rintro inv v rfl
    have hv : v.engine.stack.length < app.config.maxCallDepth := by omega
    have deeper : (goalWithin room).Leaves app (enterGoal inv v).engine.stack.length :=
      ih (by rw [depth_enterGoal]; omega)
    exact (meets_goalRun_anyTime inv hv).ending fun t u => deeper.carryOutWith

/-- Goals leave what they find at any depth. -/
theorem leaves_goalHere (depth : Nat) : goalHere.Leaves app depth := by
  rintro inv v rfl
  exact leaves_goalWithin rfl inv v rfl

/-- Carried out, a task leaves what it finds, but for a recovery's own frame. -/
theorem follows_perform (t : Task) (w : World) :
    (t.start w).Follows t.top (perform t w).2 := by
  have owed : (inside t.app w.engine.stack.length w.engine.registry anyTime).owes t w :=
    ⟨rfl, rfl, rfl, trivial⟩
  exact (leaves_goalHere _).carryOutWith owed

/-- What a run keeps by its contract it leaves as it finds it. -/
theorem Keeps.follows {p : Run α} (h : Keeps app anyTime top p w) : w.Follows top (p.run w).2 :=
  Meets.ending h fun t v _ => follows_perform t v

end Run

end GoalScript
