import GoalScript.Proofs.Following

namespace GoalScript

namespace World

variable {w : World}

theorem follows_record (w : World) (entry : Entry) : w.Follows Eq (w.record entry) :=
  .of_same rfl rfl rfl rfl fun _ h => h

theorem follows_withStore {s : Store} (h : w.store.Silent s) : w.Follows Eq (w.withStore s) :=
  .of_same rfl rfl rfl (by simp only [flags, withStore, h.inEvent]; rfl)
    fun hi hp => (h.pending hi).trans hp

/-- An event body runs with both flags up; afterwards they are as before. -/
theorem Follows.setInEvent {v : World} (h : (w.setInEvent true true).Follows Eq v) :
    w.Follows Eq (v.setInEvent w.engine.context.inEvent w.engine.memory.inEvent) where
  stack := h.stack
  registry := h.registry
  replies := h.replies
  flags hd := by
    have hl : v.engine.context.logLevel = w.engine.context.logLevel :=
      congrArg (fun flags => flags.2.2) (h.flags hd)
    simp only [World.flags, World.setInEvent, hl]
  pending hq _ hp := h.pending hq rfl hp

/-- Nothing is queued, unless modules are indiscreet. -/
def Idle (w : World) : Prop := w.engine.registry.Discreet → w.engine.memory.pending = []

theorem idle_take (w : World) : w.take.Idle := fun _ => rfl

theorem Idle.take_follows (h : w.Idle) : w.take.Follows Eq w where
  stack := .refl _
  registry := rfl
  replies := Nat.le_refl _
  flags _ := rfl
  pending hd _ _ := h hd

/-- During events an idle world stays idle. -/
theorem Follows.idle {top : Frame → Frame → Prop} {v : World} (h : w.Follows top v)
    (hw : w.Idle) (hi : w.engine.memory.inEvent = true) : v.Idle := by
  intro hd
  have hd : w.engine.registry.Discreet := h.registry ▸ hd
  exact h.pending hd hi (hw hd)

end World

namespace Run

variable {α : Type} {app : App} {ready : Task → World → Prop} {top : Frame → Frame → Prop}
  {w : World}

theorem keeps_note (entry : Entry) : Keeps app ready Eq (note entry) w :=
  keeps_update (w.follows_record entry)

theorem clears_note_bind {β : Type} [IsPreorder Frame top] {entry : Entry} {f : Unit → Run β}
    (h : Clears app ready top (f ()) (w.record entry)) :
    Clears app ready top (note entry >>= f) w :=
  meets_bind.mpr (meets_update.mpr ⟨Nat.le_refl _, h.mono fun _ he =>
    (w.follows_record entry).take.of_eq.trans he⟩)

theorem keeps_wait (ms : Nat) : Keeps app ready Eq (wait ms) w :=
  keeps_update (.of_same rfl rfl rfl rfl fun _ h => h)

theorem keeps_modifyContext {f : Context → Context} (hi : ∀ c, (f c).inEvent = c.inEvent)
    (hl : ∀ c, (f c).logLevel = c.logLevel) : Keeps app ready Eq (modifyContext f) w :=
  keeps_update (.of_same rfl rfl rfl (by simp only [World.flags, hi, hl]) fun _ h => h)

theorem keeps_setSetting (owner key : String) (value : Json) :
    Keeps app ready Eq (setSetting owner key value) w :=
  keeps_update (.of_same rfl rfl rfl rfl fun _ h => h)

theorem keeps_ofMemory (r : Resolved α) : Keeps app ready Eq (ofMemory r) w := by
  cases r with
  | ok a => exact keeps_pure
  | error e => exact keeps_throw

theorem keeps_put (name : String) (value : Value) : Keeps app ready Eq (put name value) w := by
  refine keeps_get_bind ?_
  cases h : w.store.put name value with
  | error e => exact keeps_throw
  | ok s => exact keeps_set (World.follows_withStore (Store.silent_put h))

theorem keeps_bind (values : Table Value) : Keeps app ready Eq (bind values) w :=
  keeps_forM (fun entry _ _ => keeps_put entry.1 entry.2) values

theorem keeps_findGoal (name : String) : Keeps app ready Eq (findGoal app name) w := by
  unfold findGoal
  split
  · exact keeps_pure
  · exact keeps_throw

theorem keeps_runGoal {inv : Invocation} (h : ready (.goal app inv) w) :
    Keeps app ready Eq (runGoal app inv) w := meets_await rfl h

/-- Callbacks leave nothing queued. -/
theorem clears_fire (h : ready (.fire app) w) : Clears app ready Eq (fire app) w :=
  Clears.bind (meets_await rfl h) fun _ _ _ => keeps_pure

theorem keeps_fire (h : ready (.fire app) w) : Keeps app ready Eq (fire app) w :=
  (clears_fire h).keeps

/-- A call leaves what it finds, if its goal does. -/
theorem keeps_enter {call : GoalCall} {values : Table Value} {origin : Option EventOrigin}
    (hg : ∀ goal locals v, ready (.goal app { goal, origin, locals }) v)
    (hf : ∀ v, w.Follows Eq v → ready (.fire app) v) :
    Keeps app ready Eq (enter app (runGoal app) call values origin) w := by
  refine (keeps_findGoal call.name).bind fun goal v hv => keeps_get_bind ?_
  refine (keeps_ofMemory _).bind fun parameters v' hv' => ?_
  refine (keeps_bind _).bind fun _ u hu => ?_
  exact (keeps_fire (hf u (hv.trans (hv'.trans hu)))).bind fun _ _ _ => keeps_runGoal (hg _ _ _)

/-- The flags are put down again behind a body that runs with both up. -/
theorem keeps_asEvent {p : Run α} (h : Keeps app ready Eq p (w.setInEvent true true)) :
    Keeps app ready Eq (asEvent p) w := by
  refine keeps_get_bind (meets_bind.mpr (meets_set.mpr ⟨Nat.le_refl _, ?_⟩))
  refine meets_afterwards.mpr (Meets.mono h fun e he => ?_)
  exact ⟨Nat.le_of_eq he.stack.length_eq, he.setInEvent⟩

theorem keeps_callBack {e : PendingEvent}
    (hg : ∀ inv v, inv.OnTheWay → ready (.goal app inv) v)
    (hf : ∀ v, (w.setInEvent true true).Follows Eq v → ready (.fire app) v) :
    Keeps app ready Eq (callBack app (runGoal app) e) w := by
  refine (keeps_asEvent (keeps_enter (fun _ _ v => hg _ v ?_) hf)).bind fun _ _ _ => keeps_pure
  intro o ho
  cases ho
  exact ⟨nofun, nofun⟩

theorem keeps_eventGoal {call : GoalCall} {origin : EventOrigin} {values : Table Value}
    (hg : ∀ goal locals v, ready (.goal app ⟨goal, some origin, locals⟩) v)
    (hf : ∀ v, ready (.fire app) v) :
    Keeps app ready Eq (runEventGoal app (runGoal app) call origin values) w :=
  (keeps_asEvent (keeps_enter hg fun v _ => hf v)).bind fun _ _ _ => keeps_pure

theorem keeps_runEventGoal {call : GoalCall} {origin : EventOrigin} {values : Table Value}
    (hg : ∀ inv v, ready (.goal app inv) v) (hf : ∀ v, ready (.fire app) v) :
    Keeps app ready Eq (runEventGoal app (runGoal app) call origin values) w :=
  keeps_eventGoal (fun _ _ v => hg _ v) hf

theorem keeps_announce {o : Occasion} {values : Table Value}
    (hg : ∀ inv v, ready (.goal app inv) v) (hf : ∀ v, ready (.fire app) v) :
    Keeps app ready Eq (announce app (runGoal app) o values) w := by
  refine keeps_get_bind ?_
  split
  · exact keeps_pure
  · exact keeps_forM (fun b _ _ => keeps_runEventGoal hg hf) _

section

variable (hg : ∀ inv v, inv.OnTheWay → ready (.goal app inv) v) (hf : ∀ v, ready (.fire app) v)

include hg hf

theorem keeps_runDeferred : Keeps app ready Eq (runDeferred app (runGoal app)) w := by
  refine keeps_get_bind ?_
  split
  · exact keeps_pure
  · refine Keeps.bind (keeps_modifyContext (fun _ => rfl) fun _ => rfl) fun _ _ _ => ?_
    refine (keeps_wait _).bind fun _ _ _ => keeps_forM (fun e _ _ => ?_) _
    exact (keeps_callBack hg fun v _ => hf v).outcome.bind fun _ _ _ => keeps_pure

theorem keeps_called {call : GoalCall} {values : Table Value} :
    Keeps app ready Eq (callGoal app (runGoal app) call values) w :=
  keeps_enter (fun _ _ v => hg _ v nofun) fun v _ => hf v

theorem keeps_runErrorBindings {scope : EventScope} {e : EngineError}
    (hs : scope ≠ .goal ∧ scope ≠ .step) (bindings : List EventBinding) :
    Keeps app ready Eq (runErrorBindings app (runGoal app) scope e bindings) w := by
  induction bindings generalizing w with
  | nil => exact keeps_pure
  | cons b rest ih =>
    have ran : Keeps app ready Eq (runEventGoal app (runGoal app) b.goalToCall ⟨scope, .onError⟩
        (errorParameters e)) w :=
      keeps_eventGoal (fun _ _ v => hg _ v fun _ h => by cases h; exact hs) hf
    refine ran.outcome.bind fun result v _ => ?_
    cases result with
    | ok _ => exact ih
    | error failure => exact keeps_throw

theorem keeps_announceError {o : Occasion} {e : EngineError}
    (hs : o.scope ≠ .goal ∧ o.scope ≠ .step) :
    Keeps app ready Eq (announceError app (runGoal app) o e) w := by
  refine keeps_get_bind ?_
  dsimp only
  split
  · exact keeps_throw
  · split
    · exact keeps_throw
    · exact keeps_runErrorBindings hg hf hs _

end

theorem keeps_callGoal {call : GoalCall} {values : Table Value}
    (hg : ∀ inv v, ready (.goal app inv) v) (hf : ∀ v, ready (.fire app) v) :
    Keeps app ready Eq (callGoal app (runGoal app) call values) w :=
  keeps_called (fun inv v _ => hg inv v) hf

section

variable (hg : ∀ inv v, inv.OnTheWay → ready (.goal app inv) v)
  (hf : ∀ v : World, v.Idle → ready (.fire app) v)

include hg hf

/-- From an idle world a callback goes on in idle worlds only, and leaves one. -/
theorem meets_callBack_idle {e : PendingEvent} (hw : w.Idle) :
    (callBack app (runGoal app) e).Meets
      (inside app w.engine.stack.length w.engine.registry ready)
      (fun r => w.Follows Eq r.2 ∧ r.2.Idle) w := by
  have body {call : GoalCall} {values : Table Value} {o : EventOrigin}
      (ho : o.scope ≠ .goal ∧ o.scope ≠ .step) :
      Keeps app ready Eq (enter app (runGoal app) call values (some o))
        (w.setInEvent true true) :=
    keeps_enter (fun _ _ v => hg _ v fun _ h => by cases h; exact ho) fun v hv =>
      hf v (hv.idle hw rfl)
  refine meets_bind.mpr (meets_get_bind.mpr ⟨Nat.le_refl _, ?_⟩)
  refine meets_bind.mpr (meets_set.mpr ⟨Nat.le_refl _, meets_afterwards.mpr ?_⟩)
  refine Meets.mono (body ⟨nofun, nofun⟩) fun r hr => ?_
  have hi : (w.setInEvent true true).Follows Eq r.2 := hr
  have done : w.Follows Eq (r.2.setInEvent w.engine.context.inEvent w.engine.memory.inEvent) ∧
      (r.2.setInEvent w.engine.context.inEvent w.engine.memory.inEvent).Idle :=
    ⟨hi.setInEvent, hi.idle hw rfl⟩
  refine ⟨Nat.le_of_eq hi.stack.length_eq, ?_⟩
  cases hr : r.1 <;> exact done

/-- Callbacks take what is queued, and whenever one of them is begun or over the queue is empty. -/
theorem meets_callBackAll :
    (callBackAll app (runGoal app)).Meets
      (inside app w.engine.stack.length w.engine.registry ready)
      (fun r => w.take.Follows Eq r.2 ∧ r.2.Idle) w := by
  have serve (e : PendingEvent) (u : World) (hu : u.Idle) :
      (if e.subscription.awaited then callBack app (runGoal app) e
        else modifyContext (·.defer e)).Meets
        (inside app u.engine.stack.length u.engine.registry ready)
        (fun r => u.Follows Eq r.2 ∧ r.2.Idle) u := by
    split
    · exact meets_callBack_idle hg hf hu
    · refine meets_update.mpr ⟨Nat.le_refl _, ?_, hu⟩
      exact .of_same rfl rfl rfl rfl fun _ h => h
  refine meets_bind.mpr (meets_get_bind.mpr ⟨Nat.le_refl _, ?_⟩)
  refine meets_bind.mpr (meets_set.mpr ⟨Nat.le_refl _, ?_⟩)
  refine (meets_forM World.Idle (fun e u _ hu => serve e u hu) _ w.idle_take).bind_inside
    (fun _ h => h.1) (fun _ _ h => h) ?_
  exact fun _ u hu => meets_pure.mpr hu

end

/-- With nothing queued there is nothing to do. -/
theorem meets_callBackAll_of_nil (app : App) (hp : w.engine.memory.pending = []) :
    (callBackAll app (runGoal app)).Meets
      (inside app w.engine.stack.length w.engine.registry fun _ _ => False)
      (fun r => r = (.ok .proceed, w)) w := by
  have hs : w.store.takePending = ([], w.store) := by
    rw [Store.takePending, ← hp]
    rfl
  refine meets_bind.mpr (meets_get_bind.mpr ⟨Nat.le_refl _, ?_⟩)
  simp only [hs]
  exact meets_bind.mpr (meets_set.mpr ⟨Nat.le_refl _, rfl⟩)

end Run

end GoalScript
