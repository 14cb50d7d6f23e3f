import GoalScript.Proofs.Leaving
import GoalScript.Proofs.Machine

namespace GoalScript

/-- The module's functions leave both in-event flags alone, and while the memory's flag is up they
queue nothing. -/
def Module.Reticent (m : Module) : Prop :=
  ∀ function site s,
    ((m.call function site).run s).2.context.inEvent = s.context.inEvent ∧
      s.store.Silent ((m.call function site).run s).2.store

def Handle.Reticent (h : Handle) : Prop := ∀ entry ∈ h.registry.modules, entry.2.Reticent

theorem Builtin.reticent_of_mem {m : Module} (h : m ∈ all) : m.Reticent := by
  intro function site s
  have ht : s.Tame ((m.call function site).run s).2 := tame_all m h function site s
  exact ⟨congrArg Context.inEvent ht.context, ht.store⟩

/-- The registry that engines start with. -/
theorem Handle.reticent_withBuiltins (stamp : Nat) : Handle.Reticent ⟨.withBuiltins, stamp⟩ :=
  fun _ he => Builtin.reticent_of_mem (Registry.mem_withBuiltins he)

/-- From `w` to `v` the in-event flags stay, and while they are up nothing is queued. -/
structure World.Steady (w v : World) : Prop where
  context : v.engine.context.inEvent = w.engine.context.inEvent
  memory : v.engine.memory.inEvent = w.engine.memory.inEvent
  pending : w.engine.memory.inEvent = true →
    v.engine.memory.pending = w.engine.memory.pending ∨ v.engine.memory.pending = []
  modules : v.engine.registry.registry.modules = w.engine.registry.registry.modules

/-- The flags agree, and the modules do not meddle with events. -/
structure World.Coherent (w : World) : Prop where
  flags : w.engine.context.inEvent = w.engine.memory.inEvent
  reticent : w.engine.registry.Reticent

namespace World

variable {u v w : World}

theorem Steady.refl (w : World) : w.Steady w := ⟨rfl, rfl, fun _ => .inl rfl, rfl⟩

theorem Steady.trans (h : w.Steady v) (k : v.Steady u) : w.Steady u where
  context := k.context.trans h.context
  memory := k.memory.trans h.memory
  pending hi := by
    rcases k.pending (h.memory.trans hi) with hk | hk
    · rcases h.pending hi with hh | hh
      · exact .inl (hk.trans hh)
      · exact .inr (hk.trans hh)
    · exact .inr hk
  modules := k.modules.trans h.modules

/-- Worlds that agree on the flags, the queue and the registry. -/
theorem Steady.of_same (hc : v.engine.context.inEvent = w.engine.context.inEvent)
    (hm : v.engine.memory.inEvent = w.engine.memory.inEvent)
    (hp : v.engine.memory.pending = w.engine.memory.pending)
    (hr : v.engine.registry.registry.modules = w.engine.registry.registry.modules) :
    w.Steady v := ⟨hc, hm, fun _ => .inl hp, hr⟩

/-- Steady changes keep the flags in agreement. -/
theorem Steady.coherent (h : w.Steady v) (hw : w.Coherent) : v.Coherent where
  flags := by rw [h.context, h.memory, hw.flags]
  reticent entry he := hw.reticent entry (h.modules ▸ he)

theorem steady_record (w : World) (entry : Entry) : w.Steady (w.record entry) :=
  .of_same rfl rfl rfl rfl

theorem steady_withStore {s : Store} (h : w.store.Silent s) : w.Steady (w.withStore s) where
  context := rfl
  memory := h.inEvent
  pending hi := .inl (h.pending hi)
  modules := rfl

/-- Raising flags that are up changes nothing that matters here. -/
theorem steady_setInEvent (hw : w.Coherent) (hi : w.engine.memory.inEvent = true) :
    w.Steady (w.setInEvent true true) :=
  .of_same (hw.flags.trans hi).symm hi.symm rfl rfl

/-- An event body that is steady with both flags up is steady as a whole. -/
theorem Steady.setInEvent (h : (w.setInEvent true true).Steady v) (hw : w.Coherent)
    (hi : w.engine.memory.inEvent = true) :
    v.Steady (v.setInEvent w.engine.context.inEvent w.engine.memory.inEvent) := by
  have hc : v.engine.context.inEvent = true := h.context
  have hm : v.engine.memory.inEvent = true := h.memory
  exact .of_same ((hw.flags.trans hi).trans hc.symm) (hi.trans hm.symm) rfl rfl

end World

/-- What may be begun while an event goal is carried out: of goals those that are called and
callbacks for variables. -/
def Task.MayNest : Task → Prop
  | .goal _ inv => ∀ o, inv.origin = some o → o.scope = .variable
  | .fire _ => True
  | .recovery .. => True

namespace Run

variable {α β : Type} {app : App} {w : World}

/-- How a run goes on: by steady changes, by tasks, which are trusted to be steady, and by event
goals that are begun while the flags are down. What it comes to is as wanted. -/
inductive Guarded (app : App) (post : Ending α → Prop) : Run α → World → Prop where
  | done {result : Except EngineError α} {w : World} (h : post (result, w)) :
    Guarded app post (.done result) w
  | change {f : World → World} {next : World → Run α} {w : World} (hs : w.Steady (f w))
    (h : Guarded app post (next (f w)) (f w)) : Guarded app post (.change f next) w
  | await {task : Task} {next : Except EngineError Control → Run α} {w : World}
    (ha : task.app = app) (hn : w.engine.memory.inEvent = true → task.MayNest)
    (h : ∀ e : Ending Control, w.Steady e.2 → Guarded app post (next e.1) e.2) :
    Guarded app post (.await task next) w
  | event {call : GoalCall} {origin : EventOrigin} {values : Table Value}
    {next : Except EngineError Unit → Run α} {w : World}
    (hd : w.engine.memory.inEvent = false)
    (h : ∀ e : Ending Unit, w.Steady e.2 → Guarded app post (next e.1) e.2) :
    Guarded app post ((runEventGoal app (runGoal app) call origin values).andThen next) w

theorem Guarded.andThen {p : Run α} {next : Except EngineError α → Run β} {mid : Ending α → Prop}
    {post : Ending β → Prop} (hp : Guarded app mid p w)
    (hn : ∀ e, mid e → Guarded app post (next e.1) e.2) :
    Guarded app post (p.andThen next) w := by
  induction hp with
  | done h => exact hn _ h
  | change hs _ ih => exact .change hs ih
  | await ha hm _ ih => exact .await ha hm ih
  | event hd _ ih =>
    rw [andThen_assoc]
    exact .event hd ih

/-- What goes on from a guarded run is guarded with it. -/
theorem Guarded.bind {p : Run α} {f : α → Run β} {mid : Ending α → Prop} {post : Ending β → Prop}
    (hp : Guarded app mid p w) (he : ∀ x v, mid (.error x, v) → post (.error x, v))
    (hf : ∀ a v, mid (.ok a, v) → Guarded app post (f a) v) : Guarded app post (p >>= f) w := by
  refine Guarded.andThen hp ?_
  rintro ⟨result, v⟩ hv
  cases result with
  | error x => exact .done (he x v hv)
  | ok a => exact hf a v hv

theorem Guarded.mono {p : Run α} {mid post : Ending α → Prop} (hp : Guarded app mid p w)
    (h : ∀ e, mid e → post e) : Guarded app post p w := by
  induction hp with
  | done hd => exact .done (h _ hd)
  | change hs _ ih => exact .change hs ih
  | await ha hm _ ih => exact .await ha hm ih
  | event hd _ ih => exact .event hd ih

def CarefulAt (app : App) (p : Run α) (w : World) : Prop :=
  Guarded app (fun e => w.Steady e.2) p w

def Careful (app : App) (p : Run α) : Prop := ∀ w : World, w.Coherent → CarefulAt app p w

theorem CarefulAt.bind {p : Run α} {f : α → Run β} (hp : CarefulAt app p w) (hw : w.Coherent)
    (hf : ∀ a v, w.Steady v → v.Coherent → CarefulAt app (f a) v) :
    CarefulAt app (p >>= f) w := by
  refine Guarded.bind hp (fun _ _ hv => hv) fun a v hv => ?_
  exact (hf a v hv (hv.coherent hw)).mono fun _ he => hv.trans he

theorem Careful.bind {p : Run α} {f : α → Run β} (hp : Careful app p)
    (hf : ∀ a, Careful app (f a)) : Careful app (p >>= f) :=
  fun w hw => (hp w hw).bind hw fun a v _ hv => hf a v hv

theorem careful_pure {a : α} : Careful app (pure a : Run α) := fun w _ => .done (.refl w)

theorem careful_throw {x : EngineError} : Careful app (throw x : Run α) :=
  fun w _ => .done (.refl w)

theorem careful_update {f : World → World} (hf : ∀ w : World, w.Coherent → w.Steady (f w)) :
    Careful app (update f) := fun w hw => .change (hf w hw) (.done (hf w hw))

theorem carefulAt_set {v : World} (h : w.Steady v) : CarefulAt app (set v : Run PUnit) w :=
  .change h (.done h)

/-- Looking at the world leads nowhere else. -/
theorem guarded_get_bind {f : World → Run β} {post : Ending β → Prop}
    (h : Guarded app post (f w) w) : Guarded app post (get >>= f) w := .change (.refl w) h

theorem careful_get_bind {f : World → Run β}
    (h : ∀ w : World, w.Coherent → CarefulAt app (f w) w) : Careful app (get >>= f) :=
  fun w hw => guarded_get_bind (h w hw)

/-- A task that may nest may be begun at any time. -/
theorem careful_await {t : Task} (ha : t.app = app) (hn : t.MayNest) :
    Careful app (await t done) := fun _ _ => .await ha (fun _ => hn) fun _ he => .done he

theorem CarefulAt.outcome {p : Run α} (hp : CarefulAt app p w) : CarefulAt app (outcome p) w :=
  Guarded.andThen hp fun _ he => .done he

theorem Careful.outcome {p : Run α} (hp : Careful app p) : Careful app (outcome p) :=
  fun w hw => (hp w hw).outcome

theorem CarefulAt.afterwards {p : Run α} {restore : World → World} (hp : CarefulAt app p w)
    (hr : ∀ v, w.Steady v → v.Steady (restore v)) : CarefulAt app (afterwards p restore) w := by
  refine Guarded.andThen hp fun e he => ?_
  have hv : w.Steady (restore e.2) := he.trans (hr e.2 he)
  exact .change (hr e.2 he) (.done hv)

theorem carefulAt_forM {f : α → Run PUnit} (as : List α) (hw : w.Coherent)
    (h : ∀ a v, w.Steady v → v.Coherent → CarefulAt app (f a) v) :
    CarefulAt app (as.forM f) w := by
  induction as generalizing w with
  | nil => exact careful_pure w hw
  | cons a as ih =>
    refine (h a w (.refl w) hw).bind hw fun _ v hv hc => ?_
    exact ih hc fun b u hu => h b u (hv.trans hu)

theorem careful_forM {f : α → Run PUnit} (h : ∀ a, Careful app (f a)) (as : List α) :
    Careful app (as.forM f) := fun _ hw => carefulAt_forM as hw fun a v _ hv => h a v hv

theorem careful_mapM {f : α → Run β} (h : ∀ a, Careful app (f a)) (as : List α) :
    Careful app (as.mapM f) := by
  have loop (as : List α) (done : List β) : Careful app (List.mapM.loop f as done) := by
    induction as generalizing done with
    | nil => exact careful_pure
    | cons a as ih => exact (h a).bind fun b => ih (b :: done)
  exact loop as []

theorem careful_note (entry : Entry) : Careful app (note entry) :=
  careful_update fun w _ => w.steady_record entry

theorem careful_wait (ms : Nat) : Careful app (wait ms) :=
  careful_update fun _ _ => .of_same rfl rfl rfl rfl

theorem careful_modifyContext {f : Context → Context} (hf : ∀ c, (f c).inEvent = c.inEvent) :
    Careful app (modifyContext f) := careful_update fun _ _ => .of_same (hf _) rfl rfl rfl

theorem careful_modifyStack (f : CallStack → CallStack) : Careful app (modifyStack f) :=
  careful_update fun _ _ => .of_same rfl rfl rfl rfl

theorem careful_setSetting (owner key : String) (value : Json) :
    Careful app (setSetting owner key value) := careful_update fun _ _ => .of_same rfl rfl rfl rfl

theorem careful_ofMemory (r : Resolved α) : Careful app (ofMemory r) := by
  cases r with
  | ok a => exact careful_pure
  | error e => exact careful_throw

theorem careful_put (name : String) (value : Value) : Careful app (put name value) := by
  refine careful_get_bind fun w hw => ?_
  cases h : w.store.put name value with
  | error e => exact careful_throw w hw
  | ok s => exact carefulAt_set (World.steady_withStore (Store.silent_put h))

theorem careful_bind (values : Table Value) : Careful app (bind values) :=
  fun _ hw => carefulAt_forM values hw fun entry v _ hv => careful_put entry.1 entry.2 v hv

/-- Callbacks for variables may be begun at any time. -/
theorem careful_fire : Careful app (fire app) := by
  have begun : Careful app (await (.fire app) done) := careful_await rfl trivial
  exact begun.bind fun _ => careful_pure

theorem careful_findGoal (name : String) : Careful app (findGoal app name) := by
  unfold findGoal
  split
  · exact careful_pure
  · exact careful_throw

def prepare (app : App) (call : GoalCall) (extra : Table Value) (origin : Option EventOrigin) :
    Run Invocation := do
  let goal ← findGoal app call.name
  let parameters ← ofMemory (resolveParameters (← get).store call.parameters)
  let locals := mergeBound extra parameters
  bind locals
  fire app
  return { goal, origin, locals }

theorem bind_assoc {γ : Type} (p : Run α) (f : α → Run β) (g : β → Run γ) :
    p >>= f >>= g = p >>= fun a => f a >>= g := by
  refine (andThen_assoc p _ _).trans (congrArg p.andThen (funext fun r => ?_))
  cases r <;> rfl

theorem enter_eq (app : App) (nested : Nested) (call : GoalCall) (extra : Table Value)
    (origin : Option EventOrigin) :
    enter app nested call extra origin = prepare app call extra origin >>= nested := by
  simp only [enter, prepare, bind_assoc]
  rfl

/-- The goal that comes of a call is run for the event that it is called for. -/
theorem guarded_prepare {call : GoalCall} {extra : Table Value} {origin : Option EventOrigin}
    (hw : w.Coherent) :
    Guarded app (fun e => w.Steady e.2 ∧ ∀ inv, e.1 = .ok inv → inv.origin = origin)
      (prepare app call extra origin) w := by
  refine Guarded.bind (careful_findGoal call.name w hw) (fun _ _ hv => ⟨hv, nofun⟩) ?_
  intro goal v hv
  refine guarded_get_bind ?_
  refine Guarded.bind (careful_ofMemory _ v (hv.coherent hw))
    (fun _ _ hu => ⟨hv.trans hu, nofun⟩) fun parameters u hu => ?_
  have hu : w.Steady u := hv.trans hu
  refine Guarded.bind (careful_bind _ u (hu.coherent hw))
    (fun _ _ ht => ⟨hu.trans ht, nofun⟩) fun _ t ht => ?_
  have ht : w.Steady t := hu.trans ht
  refine Guarded.bind (careful_fire t (ht.coherent hw))
    (fun _ _ hx => ⟨ht.trans hx, nofun⟩) fun _ x hx => ?_
  exact .done ⟨ht.trans hx, fun inv he => by cases he; rfl⟩

end Run

end GoalScript
