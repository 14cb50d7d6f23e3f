import GoalScript.Proofs.Performing

namespace GoalScript.Run

variable {α β : Type} {app : App} {depth : Nat} {w : World}

section

variable {tasks : Task → World → Ending Control}

theorem exec_andThen (p : Run α) (next : Except EngineError α → Run β) (w : World) :
    exec tasks (p.andThen next) w =
      exec tasks (next (exec tasks p w).1) (exec tasks p w).2 := by
  induction p generalizing w with
  | done result => rfl
  | change f rest ih => exact ih (f w) (f w)
  | await task rest ih => exact ih _ _

end

/-- A failure ends a run, and a result is gone on with. -/
theorem run_bind (p : Run α) (f : α → Run β) (w : World) :
    (p >>= f).run w = match p.run w with
      | (.ok a, v) => (f a).run v
      | (.error e, v) => (.error e, v) := by
  refine (exec_andThen p _ w).trans ?_
  rw [run]
  rcases exec perform p w with ⟨_ | _, v⟩ <;> rfl

theorem run_bind_of_ok {p : Run α} {f : α → Run β} {a : α} {v : World}
    (h : p.run w = (.ok a, v)) : (p >>= f).run w = (f a).run v := by rw [run_bind, h]

theorem run_bind_of_error {p : Run α} {f : α → Run β} {e : EngineError} {v : World}
    (h : p.run w = (.error e, v)) : (p >>= f).run w = (.error e, v) := by rw [run_bind, h]

theorem run_outcome (p : Run α) (w : World) :
    (outcome p).run w = (.ok (p.run w).1, (p.run w).2) := exec_andThen p _ w

theorem run_afterwards (p : Run α) (restore : World → World) (w : World) :
    (afterwards p restore).run w = ((p.run w).1, restore (p.run w).2) := exec_andThen p _ w

@[simp] theorem run_update (f : World → World) (w : World) :
    (update f).run w = (.ok (), f w) := rfl

@[simp] theorem run_get_bind (f : World → Run β) (w : World) :
    ((get : Run World) >>= f).run w = (f w).run w := rfl

/-- A task that is waited for is carried out. -/
theorem run_await (t : Task) (w : World) : (await t done).run w = perform t w := rfl

def Runner.Agrees (goal goal' : Runner) (app : App) (depth : Nat) : Prop :=
  ∀ inv (v : World), v.engine.stack.length = depth → goal app inv v = goal' app inv v

namespace Runner.Agrees

variable {goal goal' : Runner} {ready : Task → World → Prop} {t : Task} {registry : Handle}

theorem fire (h : goal.Agrees goal' app w.engine.stack.length)
    (hg : goal.Leaves app w.engine.stack.length) :
    exec (quietly goal) (callBackAll app (runGoal app)) w =
      exec (quietly goal') (callBackAll app (runGoal app)) w := by
  refine Meets.exec_congr clears_callBackAll (fun _ _ => hg.quietly) fun t v ht => ?_
  obtain ⟨ha, hv, -, -⟩ := ht
  cases t with
  | goal app' inv =>
    obtain rfl : app' = app := ha
    exact h inv v hv
  | fire app' => rfl
  | recovery app' site effort => rfl

theorem carryOut {again again' : App → Site → Effort → World → Ending Control}
    (h : goal.Agrees goal' app depth) (hg : goal.Leaves app depth)
    (ht : (inside app depth registry ready).owes t w)
    (ha : ∀ site effort, ready (.recovery app site effort) w →
      again app site effort w = again' app site effort w) :
    carryOut goal again t w = carryOut goal' again' t w := by
  obtain ⟨rfl, rfl, -, hr⟩ := ht
  cases t with
  | goal app inv => exact h inv w rfl
  | fire app => exact h.fire hg
  | recovery app site effort => exact ha site effort hr

theorem recoverWithin (h : goal.Agrees goal' app w.engine.stack.length)
    (hg : goal.Leaves app w.engine.stack.length) (turns : Nat) {site : Site} {effort : Effort} :
    recoverWithin goal turns app site effort w = recoverWithin goal' turns app site effort w := by
  induction turns generalizing site effort w with
  | zero => rfl
  | succ turns ih =>
    refine Meets.exec_congr keeps_recovery_anyTime (fun t v ht => ?_) fun t v ht => ?_
    · exact hg.carryOut ht fun _ _ => (ht.2.1.symm ▸ hg).recoverWithin turns
    · exact h.carryOut hg ht fun _ _ _ => ih (ht.2.1.symm ▸ h) (ht.2.1.symm ▸ hg)

theorem carryOutWith (h : goal.Agrees goal' app depth) (hg : goal.Leaves app depth)
    (ht : (inside app depth registry ready).owes t w) :
    carryOutWith goal t w = carryOutWith goal' t w :=
  h.carryOut hg ht fun _ _ _ => (ht.2.1.symm ▸ h).recoverWithin (ht.2.1.symm ▸ hg) _

end Runner.Agrees

/-- Goals come to the same with however much room, as long as there is enough. -/
theorem agrees_goalWithin {room : Nat} (h : app.config.maxCallDepth - depth = room) :
    (goalWithin room).Agrees goalHere app depth := by
  rintro inv v rfl
  rw [goalHere, h]

/-- The room never runs out but where the stack is full. -/
theorem perform_goal (app : App) (inv : Invocation) (w : World) :
    perform (.goal app inv) w = (goalRun app (runGoal app) inv).run w := by
  change goalWithin (app.config.maxCallDepth - w.engine.stack.length) app inv w = _
  by_cases hw : w.engine.stack.length < app.config.maxCallDepth
  · obtain ⟨room, hr⟩ : ∃ room, app.config.maxCallDepth - w.engine.stack.length = room + 1 :=
      ⟨app.config.maxCallDepth - w.engine.stack.length - 1, by omega⟩
    have hroom : app.config.maxCallDepth - (enterGoal inv w).engine.stack.length = room := by
      rw [depth_enterGoal]
      omega
    rw [hr]
    exact (meets_goalRun_anyTime inv hw).exec_congr
      (fun _ _ => (leaves_goalWithin hroom).carryOutWith)
      fun _ _ => (agrees_goalWithin hroom).carryOutWith (leaves_goalWithin hroom)
  · have hr : app.config.maxCallDepth - w.engine.stack.length = 0 := by omega
    rw [hr, goalRun, run_get_bind]
    simp only [Nat.not_lt.mp hw, ↓reduceIte]
    rfl

def endsWithin (turns : Nat) : Task → World → Prop
  | .recovery _ site effort, v => turnsLeft site effort v ≤ turns
  | .goal .., _ => True
  | .fire _, _ => True

theorem keeps_recovery_endsWithin {turns : Nat} {site : Site} {effort : Effort}
    (h : turnsLeft site effort w ≤ turns + 1) :
    Keeps app (endsWithin turns) Frame.SameRun (recovery app (runGoal app) site effort) w :=
  keeps_recovery (fun _ _ _ => trivial) (fun _ => trivial) fun _ _ hv =>
    Nat.le_of_lt_succ (Nat.lt_of_lt_of_le hv h)

/-- Turns to spare make no difference. -/
theorem recoverWithin_of_le {goal : Runner} (hg : goal.Leaves app w.engine.stack.length)
    {turns : Nat} {site : Site} {effort : Effort} (h : turnsLeft site effort w ≤ turns) :
    recoverWithin goal turns app site effort w =
      recoverWithin goal (turnsLeft site effort w) app site effort w := by
  induction turns using Nat.strongRecOn generalizing site effort w with
  | ind turns ih =>
    obtain ⟨left, hleft⟩ : ∃ left, turnsLeft site effort w = left + 1 := ⟨_, rfl⟩
    obtain ⟨turns, rfl⟩ : ∃ n, turns = n + 1 := ⟨turns - 1, by omega⟩
    rw [hleft] at h ⊢
    refine Meets.exec_congr (keeps_recovery_endsWithin (Nat.le_of_eq hleft))
      (fun t v ht => hg.carryOut ht fun _ _ => (ht.2.1.symm ▸ hg).recoverWithin turns)
      fun t v ht => ?_
    -- Both sides go on with the same goals, and neither is short of turns.
    refine Runner.Agrees.carryOut (fun _ _ _ => rfl) hg ht fun site' effort' hle => ?_
    have hv : goal.Leaves app v.engine.stack.length := ht.2.1.symm ▸ hg
    have hle : turnsLeft site' effort' v ≤ left := hle
    rw [ih turns (by omega) hv (by omega), ih left (by omega) hv hle]

/-- The turns never run out. -/
theorem perform_recovery (app : App) (site : Site) (effort : Effort) (w : World) :
    perform (.recovery app site effort) w = (recovery app (runGoal app) site effort).run w := by
  obtain ⟨left, hleft⟩ : ∃ left, turnsLeft site effort w = left + 1 := ⟨_, rfl⟩
  change recoverWithin goalHere (turnsLeft site effort w) app site effort w = _
  rw [hleft]
  refine Meets.exec_congr (keeps_recovery_endsWithin (Nat.le_of_eq hleft))
    (fun t v ht => (leaves_goalHere _).carryOut ht fun _ _ =>
      (leaves_goalHere _).recoverWithin left) fun t v ht => ?_
  exact Runner.Agrees.carryOut (fun _ _ _ => rfl) (leaves_goalHere _) ht fun site' effort' hle =>
    recoverWithin_of_le (leaves_goalHere _) hle

/-- With nothing queued there is nothing to do. -/
theorem perform_fire_of_nil (app : App) (hp : w.engine.memory.pending = []) :
    perform (.fire app) w = (.ok .proceed, w) :=
  Meets.ending (meets_callBackAll_of_nil app hp) fun _ _ h => h.2.2.2.elim

/-- As long as modules are discreet, callbacks that are begun during callbacks find nothing to call
back for. -/
theorem perform_fire (app : App) (w : World) (hd : w.engine.registry.Discreet) :
    perform (.fire app) w = (callBackAll app (runGoal app)).run w := by
  refine Meets.exec_congr clears_callBackAll (fun _ _ => (leaves_goalHere _).quietly)
    fun t v ht => ?_
  obtain ⟨rfl, -, hreg, hr⟩ := ht
  cases t with
  | goal app inv => rfl
  | fire app =>
    have idle : v.Idle := hr
    exact (perform_fire_of_nil app (idle (hreg ▸ hd))).symm
  | recovery app site effort => exact hr.elim

/-- A task comes to what its program comes to. -/
theorem perform_eq_run (t : Task) (hd : w.engine.registry.Discreet) :
    perform t w = t.program.run w := by
  cases t with
  | goal app inv => exact perform_goal app inv w
  | fire app => exact perform_fire app w hd
  | recovery app site effort => exact perform_recovery app site effort w

end GoalScript.Run
