import GoalScript.Proofs.Keeping

namespace GoalScript

theorem Registry.mem_of_get {r : Registry} {name : String} {m : Module} (h : r.get name = .ok m) :
    ∃ key, (key, m) ∈ r.modules := by
  simp only [get] at h
  split at h
  · cases h
  · split at h
    · rename_i m' hm
      cases h
      obtain ⟨l₁, l₂, he, _⟩ := List.lookup_eq_some_iff.mp hm
      exact ⟨r.target name, by simp [he]⟩
    · split at h <;> cases h

namespace World

variable {w : World}

theorem follows_modifyStack (w : World) {f : Frame → Frame}
    (hf : ∀ frame, Frame.SameRun frame (f frame)) :
    w.Follows Frame.SameRun
      { w with engine := { w.engine with stack := w.engine.stack.modifyTop f } } where
  stack := .modifyTop hf
  registry := rfl
  replies := Nat.le_refl _
  flags _ := rfl
  pending _ _ h := h

end World

namespace Run

variable {app : App} {ready : Task → World → Prop} {w : World}

theorem keeps_setOpen (indices : List Nat) (isOpen : Bool) :
    Keeps app ready Frame.SameRun (modifyStack (·.setOpen indices isOpen)) w :=
  keeps_update (w.follows_modifyStack fun _ => ⟨rfl, rfl, rfl⟩)

/-- A module's function does not fail as a part of a run, and may leave something queued. -/
theorem meets_callModule {m : Module} {site : Site} {limit : Nat}
    (hm : ∃ key, (key, m) ∈ w.engine.registry.registry.modules) :
    (callModule m site limit).Meets (inside app w.engine.stack.length w.engine.registry ready)
      (fun r => (∃ result, r.1 = .ok result) ∧ w.Follows Eq r.2.take) w := by
  obtain ⟨key, hm⟩ := hm
  refine meets_get_bind.mpr ⟨Nat.le_refl _, ?_⟩
  refine meets_bind.mpr (meets_set.mpr ⟨Nat.le_refl _, meets_pure.mpr ⟨⟨_, rfl⟩, ?_⟩⟩)
  exact {
    stack := .refl _
    registry := rfl
    replies := Nat.le_refl _
    flags := fun hd => hd _ hm _ _ _
    pending := fun _ _ _ => rfl }

theorem keeps_callModule_bind {β : Type} {m : Module} {site : Site} {limit : Nat}
    {f : Except Halt Output → Run β}
    (hm : ∃ key, (key, m) ∈ w.engine.registry.registry.modules)
    (hf : ∀ result v, Clears app ready Frame.SameRun (f result) v) :
    Keeps app ready Frame.SameRun (callModule m site limit >>= f) w := by
  refine meets_bind.mpr ((meets_callModule hm).mono ?_)
  rintro ⟨result, v⟩ ⟨⟨a, rfl⟩, hv⟩
  have called : w.Follows Eq v.take := hv
  have cleared : (f a).Meets (inside app w.engine.stack.length w.engine.registry ready)
      (fun r => v.take.Follows Frame.SameRun r.2) v := called.inside_eq ▸ hf a v
  exact cleared.mono fun r hr => called.of_eq.trans hr

/-- The module of a step is one of the registry. -/
theorem keeps_moduleOf_bind {β : Type} {step : Step} {f : Option Module → Run β}
    (h : ∀ m?, (∀ m, m? = some m → ∃ key, (key, m) ∈ w.engine.registry.registry.modules) →
      Keeps app ready Frame.SameRun (f m?) w) :
    Keeps app ready Frame.SameRun (moduleOf step >>= f) w := by
  refine meets_bind.mpr (meets_get_bind.mpr ⟨Nat.le_refl _, ?_⟩)
  split
  · rename_i m hm
    exact h (some m) fun _ he => by cases he; exact Registry.mem_of_get hm
  · exact h none fun _ he => by cases he
  · exact World.Follows.refl w

section

variable (hg : ∀ inv v, inv.OnTheWay → ready (.goal app inv) v) (hf : ∀ v, ready (.fire app) v)

include hf in
theorem keeps_storeResult {step : Step} {v : Value} :
    Keeps app ready Eq (storeResult app step v) w := by
  unfold storeResult
  split
  · exact (keeps_put _ _).bind fun _ u _ => keeps_fire (hf u)
  · exact keeps_pure

include hg hf

/-- Only a condition's outcome changes the frame. -/
theorem keeps_applyOutput_of_ne {site : Site} {output : Output}
    (h : ∀ taken, output ≠ .branch taken) :
    Keeps app ready Eq (applyOutput app (runGoal app) site output) w := by
  cases output with
  | nothing => exact keeps_pure
  | value v => exact (keeps_storeResult hf).bind fun _ _ _ => keeps_pure
  | callGoal call =>
    refine (keeps_called hg hf).bind fun control v _ => ?_
    split
    · exact (keeps_storeResult hf).bind fun _ _ _ => keeps_pure
    · exact keeps_pure
    · exact keeps_pure
  | exit levels => exact keeps_pure
  | returned v => exact keeps_pure
  | branch taken => exact absurd rfl (h taken)

theorem keeps_applyOutput {site : Site} (output : Output) :
    Keeps app ready Frame.SameRun (applyOutput app (runGoal app) site output) w := by
  by_cases h : ∃ taken, output = .branch taken
  · obtain ⟨taken, rfl⟩ := h
    exact (keeps_setOpen _ _).bind fun _ _ _ => keeps_pure
  · exact (keeps_applyOutput_of_ne hg hf fun taken he => h ⟨taken, he⟩).of_eq

theorem keeps_fallBack {step : Step} : Keeps app ready Eq (fallBack app (runGoal app) step) w := by
  unfold fallBack
  split
  · refine (keeps_called hg hf).bind fun control v _ => ?_
    split <;> exact keeps_pure
  · exact keeps_throw

theorem clears_conclude_of_ne {site : Site} {result : Except Halt Output}
    (h : ∀ taken, result ≠ .ok (.branch taken)) :
    Clears app ready Eq (conclude app (runGoal app) site result) w := by
  cases result with
  | ok output =>
    refine clears_note_bind ((clears_fire (hf _)).bind fun _ _ _ => ?_)
    exact keeps_applyOutput_of_ne hg hf fun taken he => h taken (congrArg _ he)
  | error halt =>
    cases halt with
    | failed e => exact (clears_fire (hf w)).outcome.bind fun _ _ _ => keeps_throw
    | timedOut => exact (clears_fire (hf w)).bind fun _ _ _ => keeps_fallBack hg hf

/-- However the function has ended, what it has queued is called back. -/
theorem clears_conclude {site : Site} (result : Except Halt Output) :
    Clears app ready Frame.SameRun (conclude app (runGoal app) site result) w := by
  by_cases h : ∃ taken, result = .ok (.branch taken)
  · obtain ⟨taken, rfl⟩ := h
    refine clears_note_bind ((clears_fire (hf _)).of_eq.bind fun _ _ _ => ?_)
    exact keeps_applyOutput hg hf (.branch taken)
  · exact (clears_conclude_of_ne hg hf fun taken he => h ⟨taken, he⟩).of_eq

/-- An attempt works on the frame of the goal. -/
theorem keeps_attempt {site : Site} :
    Keeps app ready Frame.SameRun (attempt app (runGoal app) site) w := by
  refine (keeps_note _).of_eq.bind fun _ v _ => keeps_moduleOf_bind fun m? hm => ?_
  cases m? with
  | none => exact keeps_pure
  | some m =>
    dsimp only
    split
    · exact keeps_throw
    · exact keeps_callModule_bind (hm m rfl) fun result _ => clears_conclude hg hf result

end

theorem foldl_max_le {ns : List Nat} {m n : Nat} (h : n ≤ m ∨ n ∈ ns) : n ≤ ns.foldl max m := by
  induction ns generalizing m with
  | nil => exact h.resolve_right List.not_mem_nil
  | cons k ns ih =>
    apply ih
    rcases h with h | h
    · exact .inl (Nat.le_trans h (Nat.le_max_left m k))
    · rcases List.mem_cons.mp h with rfl | h
      · exact .inl (Nat.le_max_right m n)
      · exact .inr h

/-- No handler of the step allows more retries than the step does. -/
theorem retryCount_le_maxRetries {step : Step} {h : ErrorHandler} (hm : h ∈ step.errorHandlers) :
    h.retryCount ≤ step.maxRetries := foldl_max_le (.inr (List.mem_map_of_mem hm))

/-- What a turn may come to that goes on in `w`: an answer has used up a reply, a retry was left. -/
structure Turned (site : Site) (effort : Effort) (w : World) (r : Ending Verdict) : Prop where
  follows : w.Follows Frame.SameRun r.2
  answered : r.1 = .ok .answered → r.2.host.replies.length < w.host.replies.length
  retry : ∀ e, r.1 = .ok (.retry e) → effort.retries < site.step.maxRetries

structure Judged (site : Site) (effort : Effort) (e : EngineError) (w : World)
    (r : Ending Verdict) : Prop extends Turned site effort w r where
  retried : ∀ x, r.1 = .ok (.retry x) → x = effort.first.getD e
  surrendered : ∀ x, r.1 = .ok (.surrender x) → x = effort.first.getD e

/-- An answer takes a reply away, and no other reaction adds one. -/
theorem meets_ask (request : Request) :
    (ask request).Meets (inside app w.engine.stack.length w.engine.registry ready) (fun e =>
      w.Follows Eq e.2 ∧ ∀ v, e.1 = .ok (.answer v) →
        e.2.host.replies.length < w.host.replies.length) w := by
  refine meets_bind.mpr (meets_update.mpr ⟨Nat.le_refl _, ?_⟩)
  refine meets_get_bind.mpr ⟨Nat.le_refl _, ?_⟩
  cases hr : w.host.replies with
  | nil =>
    have hw : (w.record (.prompted request)).host.replies = [] := hr
    simp only [hw]
    refine meets_bind.mpr (meets_set.mpr ⟨Nat.le_refl _, ?_⟩)
    refine meets_pure.mpr ⟨.of_same rfl rfl hr.symm rfl fun _ h => h, ?_⟩
    intro v hv
    split at hv <;> cases hv
  | cons reply rest =>
    have hw : (w.record (.prompted request)).host.replies = reply :: rest := hr
    simp only [hw]
    refine meets_bind.mpr (meets_set.mpr ⟨Nat.le_refl _, ?_⟩)
    refine meets_pure.mpr ⟨?_, fun _ _ => by simp⟩
    exact {
      stack := .refl _
      registry := rfl
      replies := by simp [hr]
      flags := fun _ => rfl
      pending := fun _ _ h => h }

section

variable (hg : ∀ inv v, inv.OnTheWay → ready (.goal app inv) v) (hf : ∀ v, ready (.fire app) v)

include hf in
theorem keeps_applyAnswer {request : Request} {answer : Value} :
    Keeps app ready Eq (applyAnswer app request answer) w := by
  cases request with
  | ask question answerVariable =>
    refine (keeps_put _ _).bind fun _ v _ => ?_
    exact (keeps_fire (hf v)).bind fun _ _ _ => keeps_pure
  | setting key => exact (keeps_setSetting _ _ _).bind fun _ _ _ => keeps_pure
  | fileAccess path =>
    simp only [applyAnswer]
    split
    · exact Keeps.bind (keeps_modifyContext (fun _ => rfl) fun _ => rfl) fun _ _ _ => keeps_pure
    · exact keeps_pure

include hf in
theorem meets_intervene {e : EngineError} :
    (intervene app e).Meets (inside app w.engine.stack.length w.engine.registry ready) (fun r =>
      w.Follows Eq r.2 ∧
        (r.1 = .ok true → r.2.host.replies.length < w.host.replies.length)) w := by
  unfold intervene
  split
  · exact meets_pure.mpr ⟨.refl w, fun h => by cases h⟩
  · rename_i request _
    refine (meets_ask request).bind_inside (fun _ h => h.1) (fun x v h => ⟨h.1, nofun⟩) ?_
    rintro reply v ⟨hv, hlt⟩
    cases reply with
    | answer a =>
      refine Meets.mono (keeps_applyAnswer hf) fun r hr => ⟨hv.trans hr, fun _ => ?_⟩
      exact Nat.lt_of_le_of_lt hr.replies (hlt a rfl)
    | decline => exact meets_pure.mpr ⟨hv, nofun⟩
    | failure text => exact meets_throw.mpr ⟨hv, nofun⟩

include hg hf

/-- Nothing is tried again but within the retries of the handler. -/
theorem meets_handle {h : ErrorHandler} {e : EngineError} {mayRetry : Bool} :
    (handle app (runGoal app) h e mayRetry).Meets
      (inside app w.engine.stack.length w.engine.registry ready)
      (fun r => w.Follows Eq r.2 ∧ (r.1 = .ok .tryAgain → mayRetry = true)) w := by
  -- Every way to a further attempt is a wait behind a test of `mayRetry`.
  have again {v : World} (hv : w.Follows Eq v) (hm : mayRetry = true) :
      (wait h.retryDelay >>= fun _ => pure Remedy.tryAgain).Meets
        (inside app v.engine.stack.length v.engine.registry ready)
        (fun r => w.Follows Eq r.2 ∧ (r.1 = .ok .tryAgain → mayRetry = true)) v :=
    (keeps_wait _).bind_meets (fun _ _ hu => ⟨hv.trans hu, fun _ => hm⟩)
      fun _ _ hu => meets_pure.mpr ⟨hv.trans hu, fun _ => hm⟩
  unfold handle
  split
  · split
    · rename_i hm
      exact again (.refl w) (Bool.and_eq_true_iff.mp hm).1
    · refine (keeps_called hg hf).bind_meets (fun _ _ hv => ⟨hv, fun hr => by cases hr⟩) ?_
      intro _ v hv
      split
      · rename_i hm
        exact again hv hm
      · exact meets_pure.mpr ⟨hv, fun hr => by split at hr <;> cases hr⟩
  · split
    · rename_i hm
      exact again (.refl w) hm
    · exact meets_pure.mpr ⟨.refl w, fun hr => by split at hr <;> cases hr⟩

theorem keeps_stepErrorEvents {site : Site} {e : EngineError} :
    Keeps app ready Eq (stepErrorEvents app (runGoal app) site e) w :=
  keeps_announceError hg hf ⟨nofun, nofun⟩

theorem keeps_surrender {site : Site} {e : EngineError} :
    Keeps app ready Eq (surrender app (runGoal app) site e) w :=
  (keeps_stepErrorEvents hg hf).bind fun _ _ _ => keeps_pure

/-- What is made of a failure does not touch the frame of its step. -/
theorem keeps_judge {site : Site} {effort : Effort} {e : EngineError} :
    Keeps app ready Eq (judge app (runGoal app) site effort e) w := by
  unfold judge
  dsimp only
  split
  · exact keeps_throw
  · refine Keeps.bind ((meets_intervene hf).mono fun _ h => h.1) fun answered u _ => ?_
    split
    · exact keeps_pure
    · split
      · exact keeps_pure
      · refine Keeps.bind ((meets_handle hg hf).mono fun _ h => h.1) fun remedy v _ => ?_
        cases remedy <;> exact keeps_pure

/-- What leads to another turn has used up a reply or has a retry left. -/
theorem meets_judge {site : Site} {effort : Effort} {e : EngineError} :
    (judge app (runGoal app) site effort e).Meets
      (inside app w.engine.stack.length w.engine.registry ready) (Judged site effort e w) w := by
  have failed {v : World} (hv : w.Follows Eq v) (x : EngineError) :
      Judged site effort e w (.error x, v) := ⟨⟨hv.of_eq, nofun, nofun⟩, nofun, nofun⟩
  have settled {v : World} (hv : w.Follows Eq v) (control : Control) :
      Judged site effort e w (.ok (.settled control), v) :=
    ⟨⟨hv.of_eq, nofun, nofun⟩, nofun, nofun⟩
  have surrendered {v : World} (hv : w.Follows Eq v) :
      Judged site effort e w (.ok (.surrender (effort.first.getD e)), v) :=
    ⟨⟨hv.of_eq, nofun, nofun⟩, nofun, fun _ hx => by cases hx; rfl⟩
  unfold judge
  dsimp only
  split
  · exact failed (.refl w) e
  · refine (meets_intervene hf).bind_inside (fun _ h => h.1) (fun x u h => failed h.1 x) ?_
    rintro answered u ⟨hu, hlt⟩
    cases answered with
    | true => exact meets_pure.mpr ⟨⟨hu.of_eq, fun _ => hlt rfl, nofun⟩, nofun, nofun⟩
    | false =>
      simp only [Bool.false_eq_true, ↓reduceIte]
      split
      · exact meets_pure.mpr (surrendered hu)
      · rename_i h hfind
        refine (meets_handle hg hf).bind_inside (fun _ h => h.1)
          (fun x t ht => failed (hu.trans ht.1) x) ?_
        rintro remedy t ⟨ht, hmay⟩
        have hwt : w.Follows Eq t := hu.trans ht
        cases remedy with
        | tryAgain =>
          have hlt : effort.retries < site.step.maxRetries :=
            Nat.lt_of_lt_of_le (of_decide_eq_true (hmay rfl))
              (retryCount_le_maxRetries (List.mem_of_find?_eq_some hfind))
          exact meets_pure.mpr
            ⟨⟨hwt.of_eq, nofun, fun _ _ => hlt⟩, fun _ hx => by cases hx; rfl, nofun⟩
        | giveUp => exact meets_pure.mpr (surrendered hwt)
        | carryOn => exact meets_pure.mpr (settled hwt _)

/-- A turn that goes on has used up a reply or a retry. -/
theorem meets_turn {site : Site} {effort : Effort} :
    (turn app (runGoal app) site effort).Meets
      (inside app w.engine.stack.length w.engine.registry ready) (Turned site effort w) w := by
  refine (keeps_attempt hg hf).outcome.bind_meets (fun x v hv => ⟨hv, nofun, nofun⟩) ?_
  intro result v hv
  cases result with
  | ok control => exact meets_pure.mpr ⟨hv, nofun, nofun⟩
  | error e =>
    refine (meets_judge hg hf).mono fun r hr => ⟨hv.trans hr.follows, fun ha => ?_, hr.retry⟩
    exact Nat.lt_of_lt_of_le (hr.answered ha) hv.replies

end

end Run

end GoalScript
