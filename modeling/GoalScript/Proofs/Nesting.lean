import GoalScript.Proofs.Carefulness
import GoalScript.Proofs.Termination

namespace GoalScript

/-- An event goal ends with the flags of the world in which it was begun. -/
theorem World.Steady.restored {before v : World} (h : (before.setInEvent true true).Steady v)
    (hd : before.engine.memory.inEvent = false) :
    before.Steady (v.setInEvent before.engine.context.inEvent before.engine.memory.inEvent) where
  context := rfl
  memory := rfl
  pending hi := absurd (hi.symm.trans hd) nofun
  modules := h.modules

namespace Run

variable {α β : Type} {app : App}

def leaving (before : World) (next : Except EngineError Unit → Run α)
    (result : Except EngineError Control) : Run α :=
  .change (fun v => v.setInEvent before.engine.context.inEvent before.engine.memory.inEvent)
    fun _ => next (result.map fun _ => ())

/-- An event goal looks at the world, raises the flags, and goes on with its body. -/
theorem runEventGoal_andThen (call : GoalCall) (origin : EventOrigin) (values : Table Value)
    (next : Except EngineError Unit → Run α) :
    (runEventGoal app (runGoal app) call origin values).andThen next =
      .change id fun w => .change (fun _ => w.setInEvent true true) fun _ =>
        (enter app (runGoal app) call values (some origin)).andThen (leaving w next) := by
  refine congrArg (Run.change id) (funext fun w => ?_)
  refine congrArg (Run.change fun _ => w.setInEvent true true) (funext fun _ => ?_)
  change Run.andThen next (Run.andThen _ (Run.andThen _
    (enter app (runGoal app) call values (some origin)))) = _
  rw [andThen_assoc, andThen_assoc]
  refine congrArg (fun k => Run.andThen k _) (funext fun r => ?_)
  cases r <;> rfl

/-- Between its start in `before` and this point of the run an event goal is being carried out, from
the binding of its parameters on, and `body` is what is left of it. -/
inductive Executing (app : App) (start : Point α) (origin : EventOrigin) (before : World)
    (body : Run Control) : Point α → Prop where
  | intro {call : GoalCall} {values : Table Value} {next : Except EngineError Unit → Run α}
    {v : World}
    (begun : Reaches start
      ((runEventGoal app (runGoal app) call origin values).andThen next, before))
    (within : Reaches
      (enter app (runGoal app) call values (some origin), before.setInEvent true true) (body, v)) :
    Executing app start origin before body (body.andThen (leaving before next), v)

section

variable {p : Run β} {next : Except EngineError β → Run α} {w : World}

/-- The first part of a run goes on by itself until it is done. -/
theorem next_andThen {s : Point α} (hn : Next (p.andThen next, w) s) :
    (∃ r, p = done r) ∨ ∃ q v, Next (p, w) (q, v) ∧ s = (q.andThen next, v) := by
  cases p with
  | done r => exact .inl ⟨r, rfl⟩
  | change f rest =>
    cases hn
    exact .inr ⟨_, _, .change f rest w, rfl⟩
  | await task rest =>
    cases hn
    exact .inr ⟨_, _, .await task rest w, by rw [andThen_assoc]⟩

end

section

variable {post : Ending α → Prop} {p q : Run α} {w v : World}

/-- While the flags are up every change is steady. -/
theorem Guarded.next (h : Guarded app post p w) (hw : w.Coherent)
    (hi : w.engine.memory.inEvent = true) (hn : Next (p, w) (q, v)) :
    w.Steady v ∧ Guarded app post q v := by
  cases h with
  | done h => cases hn
  | change hs h =>
    cases hn
    exact ⟨hs, h⟩
  | @await task _ _ ha _ h =>
    cases hn
    subst ha
    exact ⟨.refl w, Guarded.andThen (careful_program task w hw) h⟩
  | event hd h => exact absurd (hi.symm.trans hd) nofun

end

/-- A point of the body of an event goal for `origin`, whose flags were raised in `up`: the goal is
about to be found and its parameters to be bound, or it runs. -/
inductive Within (app : App) (origin : EventOrigin) (up : World) : Point Control → Prop where
  | preparing {b : Run Invocation} {v : World} (steady : up.Steady v)
    (run : Guarded app
      (fun e => up.Steady e.2 ∧ ∀ inv, e.1 = .ok inv → inv.origin = some origin) b v) :
    Within app origin up (b >>= runGoal app, v)
  | running {body : Run Control} {v : World} (steady : up.Steady v)
    (run : Guarded app (fun e => up.Steady e.2) body v) : Within app origin up (body, v)

namespace Within

variable {origin : EventOrigin} {up : World} {s t : Point Control}

theorem steady (h : Within app origin up s) : up.Steady s.2 := by
  cases h with
  | preparing steady _ => exact steady
  | running steady _ => exact steady

theorem next (h : Within app origin up s) (hu : up.Coherent)
    (hi : up.engine.memory.inEvent = true) (hn : Next s t) :
    s.2.Steady t.2 ∧ Within app origin up t := by
  have hc : s.2.Coherent := h.steady.coherent hu
  have hs : s.2.engine.memory.inEvent = true := h.steady.memory.trans hi
  cases h with
  | @preparing b v steady run =>
    rcases next_andThen hn with ⟨r, rfl⟩ | ⟨b', v', hb, rfl⟩
    · cases r with
      | error e => cases hn
      | ok inv =>
        -- The goal itself begins.
        cases hn
        refine ⟨.refl v, .running steady ?_⟩
        have goal := careful_program (.goal app inv) v hc
        exact Guarded.andThen goal fun e he => .done (steady.trans he)
    · obtain ⟨hv, run⟩ := run.next hc hs hb
      exact ⟨hv, .preparing (steady.trans hv) run⟩
  | @running body v steady run =>
    obtain ⟨body', v'⟩ := t
    obtain ⟨hv, run⟩ := run.next hc hs hn
    exact ⟨hv, .running (steady.trans hv) run⟩

/-- What the body of an event goal gets to is within it. -/
theorem of_reaches {call : GoalCall} {values : Table Value} (hu : up.Coherent)
    (hi : up.engine.memory.inEvent = true)
    (hr : Reaches (enter app (runGoal app) call values (some origin), up) s) :
    Within app origin up s := by
  induction hr with
  | refl =>
    rw [enter_eq]
    exact .preparing (.refl up) (guarded_prepare hu)
  | tail _ hn ih => exact (ih.next hu hi hn).2

/-- What is begun in the body of an event goal for anything but a variable is the goal itself. -/
theorem begins {inv : Invocation} {o : EventOrigin} {k : Except EngineError Control → Run Control}
    {v : World} (h : Within app origin up (await (.goal app inv) k, v))
    (hi : up.engine.memory.inEvent = true) (ho : inv.origin = some o)
    (hv : o.scope ≠ .variable) : o = origin ∧ await (.goal app inv) k = runGoal app inv := by
  have hup : v.engine.memory.inEvent = true := h.steady.memory.trans hi
  have guarded {post : Ending Control → Prop}
      (run : Guarded app post (await (.goal app inv) k) v) : False := by
    cases run with
    | await _ hm _ => exact hv (hm hup o ho)
  generalize hb : await (.goal app inv) k = body at h
  cases h with
  | running _ run => exact (guarded (hb ▸ run)).elim
  | @preparing b _ _ run =>
    cases run with
    | @done result _ hpost =>
      cases result with
      | error e => cases hb
      | ok inv' =>
        cases hb
        have he : some o = some origin := ho.symm.trans (hpost.2 inv rfl)
        exact ⟨Option.some.inj he, rfl⟩
    | change => cases hb
    | await _ hm _ =>
      cases hb
      exact absurd (hm hup o ho) hv
    | event hd _ => exact absurd (hup.symm.trans hd) nofun

end Within

structure Opens (app : App) (start : Point α) (call : GoalCall) (origin : EventOrigin)
    (values : Table Value) (next : Except EngineError Unit → Run α) (before : World) : Prop where
  begun : Reaches start
    ((runEventGoal app (runGoal app) call origin values).andThen next, before)
  coherent : before.Coherent
  down : before.engine.memory.inEvent = false
  rest : ∀ e : Ending Unit, before.Steady e.2 → Guarded app (fun _ => True) (next e.1) e.2

/-- The points that a guarded run gets to: outside event goals, between a look at the world and the
raising of the flags, and in the body of an event goal. -/
inductive Watched (app : App) (start : Point α) : Point α → Prop where
  | outside {p : Run α} {w : World} (coherent : w.Coherent)
    (down : w.engine.memory.inEvent = false) (run : Guarded app (fun _ => True) p w) :
    Watched app start (p, w)
  | entering {call : GoalCall} {origin : EventOrigin} {values : Table Value}
    {next : Except EngineError Unit → Run α} {before : World}
    (opens : Opens app start call origin values next before) :
    Watched app start (.change (fun _ => before.setInEvent true true) fun _ =>
      (enter app (runGoal app) call values (some origin)).andThen (leaving before next), before)
  | within {call : GoalCall} {origin : EventOrigin} {values : Table Value}
    {next : Except EngineError Unit → Run α} {before v : World} {body : Run Control}
    (opens : Opens app start call origin values next before)
    (within : Reaches (enter app (runGoal app) call values (some origin),
      before.setInEvent true true) (body, v)) :
    Watched app start (body.andThen (leaving before next), v)

namespace Opens

variable {start : Point α} {call : GoalCall} {origin : EventOrigin} {values : Table Value}
  {next : Except EngineError Unit → Run α} {before v : World} {body : Run Control}

theorem up_coherent (h : Opens app start call origin values next before) :
    (before.setInEvent true true).Coherent := ⟨rfl, h.coherent.reticent⟩

theorem within (h : Opens app start call origin values next before)
    (hr : Reaches (enter app (runGoal app) call values (some origin),
      before.setInEvent true true) (body, v)) :
    Within app origin (before.setInEvent true true) (body, v) :=
  .of_reaches h.up_coherent rfl hr

end Opens

namespace Watched

variable {start s t : Point α}

theorem next (h : Watched app start s) (hr : Reaches start s) (hn : Next s t) :
    Watched app start t := by
  cases h with
  | outside coherent down run =>
    cases run with
    | done h => cases hn
    | change hs h =>
      cases hn
      exact .outside (hs.coherent coherent) (hs.memory.trans down) h
    | @await task _ _ ha hm h =>
      cases hn
      subst ha
      exact .outside coherent down (Guarded.andThen (careful_program task _ coherent) h)
    | @event call origin values next w hd h =>
      rw [runEventGoal_andThen] at hn
      cases hn
      exact .entering ⟨hr, coherent, down, h⟩
  | entering opens =>
    cases hn
    exact .within opens .refl
  | @within call origin values next before v body opens within =>
    have hw := opens.within within
    rcases next_andThen hn with ⟨r, rfl⟩ | ⟨body', v', hb, rfl⟩
    · -- The event goal is over, and its flags are put back.
      cases hn
      have hv : before.Steady _ := hw.steady.restored opens.down
      exact .outside (hv.coherent opens.coherent) (hv.memory.trans opens.down)
        (opens.rest (r.map fun _ => (), _) hv)
    · exact .within opens (within.tail hb)

theorem of_reaches (h : Watched app start start) (hr : Reaches start s) :
    Watched app start s := by
  induction hr with
  | refl => exact h
  | tail hr hn ih => exact ih.next hr hn

theorem coherent (h : Watched app start s) : s.2.Coherent := by
  cases h with
  | outside coherent _ _ => exact coherent
  | entering opens => exact opens.coherent
  | within opens within => exact (opens.within within).steady.coherent opens.up_coherent

/-- While the flags are up the point is in the body of an event goal that was begun with the flags
down. -/
theorem exists_opens (h : Watched app start s) (hi : s.2.engine.memory.inEvent = true) :
    ∃ call origin values next before body v, Opens app start call origin values next before ∧
      Reaches (enter app (runGoal app) call values (some origin), before.setInEvent true true)
        (body, v) ∧ s = (body.andThen (leaving before next), v) := by
  cases h with
  | outside _ down _ => exact absurd (hi.symm.trans down) nofun
  | entering opens => exact absurd (hi.symm.trans opens.down) nofun
  | within opens within => exact ⟨_, _, _, _, _, _, _, opens, within, rfl⟩

end Watched

/-- What is so at every point at which an event goal is carried out. -/
structure Sheltered (app : App) (start s : Point α) : Prop where
  -- No event is announced, and no error.
  announced (nested : Nested) (o : Occasion) (values : Table Value) :
    (announce app nested o values).run s.2 = (.ok (), s.2)
  errors (nested : Nested) (o : Occasion) (e : EngineError) :
    (announceError app nested o e).run s.2 = (.error e, s.2)
  -- A goal that is begun for anything but a variable is all that is left of an event goal, which
  -- was begun with the flags down.
  begins (inv : Invocation) (o : EventOrigin) (next : Except EngineError Control → Run α) :
    s.1 = await (.goal app inv) next → inv.origin = some o → o.scope ≠ .variable →
      ∃ before, before.engine.memory.inEvent = false ∧
        Executing app start o before (runGoal app inv) s
  -- Writes and removals queue nothing, and neither does anything else that the run does.
  writes (expr : String) (value : Value) (u : Store) :
    s.2.store.put expr value = .ok u ∨ s.2.store.putShared expr value = .ok u ∨
      s.2.store.remove expr = .ok u → u.memory.pending = s.2.engine.memory.pending
  queue (t : Point α) : Next s t →
    t.2.engine.memory.pending = s.2.engine.memory.pending ∨ t.2.engine.memory.pending = []

theorem Watched.sheltered {start s : Point α} (h : Watched app start s)
    (hi : s.2.engine.memory.inEvent = true) : Sheltered app start s := by
  have hc : s.2.engine.context.inEvent = true := h.coherent.flags.trans hi
  obtain ⟨call, origin, values, next, before, body, v, opens, within, rfl⟩ := h.exists_opens hi
  have hw := opens.within within
  have hv : v.engine.context.inEvent = true := hc
  refine ⟨?announced, ?errors, ?begins, ?writes, ?queue⟩
  case announced =>
    intro nested o values
    rw [announce, run_get_bind, if_pos hv]
    rfl
  case errors =>
    intro nested o e
    rw [announceError, run_get_bind]
    simp only [hv, Bool.true_or, ↓reduceIte]
    rfl
  case begins =>
    intro inv o k hs ho hne
    cases body with
    | done r => cases hs
    | change f rest => cases hs
    | await task rest =>
      cases hs
      obtain ⟨rfl, hb⟩ := hw.begins rfl ho hne
      rw [hb] at within ⊢
      exact ⟨before, opens.down, .intro opens.begun within⟩
  case writes =>
    intro expr value u hu
    rcases hu with hu | hu | hu
    · exact (Store.silent_put hu).pending hi
    · exact (Store.silent_putShared hu).pending hi
    · exact (Store.silent_remove hu).pending hi
  case queue =>
    intro t hn
    rcases next_andThen hn with ⟨r, rfl⟩ | ⟨body', v', hb, rfl⟩
    · cases hn
      exact .inl rfl
    · exact (hw.next opens.up_coherent rfl hb).1.pending hi

/-- The flags are up exactly where an event goal is carried out. -/
theorem Watched.executing_iff {start s : Point α} (h : Watched app start start)
    (hr : Reaches start s) : s.2.engine.memory.inEvent = true ↔
      ∃ origin before body, Executing app start origin before body s := by
  constructor
  · intro hi
    obtain ⟨call, origin, values, next, before, body, v, opens, within, rfl⟩ :=
      (h.of_reaches hr).exists_opens hi
    exact ⟨origin, before, body, .intro opens.begun within⟩
  · rintro ⟨origin, before, body, ⟨begun, within⟩⟩
    have hb : before.Coherent := (h.of_reaches begun).coherent
    have hw : Within app origin (before.setInEvent true true) _ :=
      .of_reaches ⟨rfl, hb.reticent⟩ rfl within
    exact hw.steady.memory

/-- All that a host may start is careful. -/
theorem Entry.carefulAt {p : Run α} {w : World} (h : Entry app p) (hw : w.Coherent)
    (hd : w.engine.memory.inEvent = false) : CarefulAt app p w := by
  have down (t : Task) (hi : w.engine.memory.inEvent = true) : t.MayNest :=
    absurd (hi.symm.trans hd) nofun
  cases h with
  | session names => exact careful_session names w hw
  | goal inv => exact .await rfl (down _) fun _ he => .done he
  | call call values => exact careful_callGoal w hw
  | eventGoal call origin values =>
    exact carefulAt_runEventGoal hw fun hi => absurd (hi.symm.trans hd) nofun

/-- In a run that starts with both flags down they agree at every point, and are up exactly where an
event goal is carried out; there no event goal is begun but callbacks for variables, and nothing is
queued. Modules are asked to leave both flags alone and to queue nothing while the flag of the
memory is up. -/
theorem event_goals_do_not_nest {p : Run α} {w : World} (h : Entry app p)
    (hm : w.engine.registry.Reticent) (hc : w.engine.context.inEvent = false)
    (hd : w.engine.memory.inEvent = false) : ∀ s, Reaches (p, w) s →
      s.2.engine.context.inEvent = s.2.engine.memory.inEvent ∧
      (s.2.engine.memory.inEvent = true ↔
        ∃ origin before body, Executing app (p, w) origin before body s) ∧
      (s.2.engine.memory.inEvent = true → Sheltered app (p, w) s) := by
  intro s hr
  have hw : w.Coherent := ⟨hc.trans hd.symm, hm⟩
  have start : Watched app (p, w) (p, w) :=
    .outside hw hd ((h.carefulAt hw hd).mono fun _ _ => trivial)
  have hs : Watched app (p, w) s := start.of_reaches hr
  exact ⟨hs.coherent.flags, start.executing_iff hr, hs.sheltered⟩

/-- At the start of an app the goal bound to it is carried out. -/
theorem event_goals_do_not_nest_at_start :
    let greet : EventBinding := {
      scope := .startOfApp, eventType := .before, goalToCall := { name := "Greet" } }
    let app : App := ⟨{ events := [greet] }, {}⟩
    let w : World := ⟨.start 0 ⟨.withBuiltins, 0⟩ false, {}⟩
    let p := session app []
    w.engine.registry.Reticent ∧ ∃ s, Reaches (p, w) s ∧ s.2.engine.context.inEvent = true ∧
      (∃ origin before body, Executing app (p, w) origin before body s) ∧
      Sheltered app (p, w) s := by
  intro greet app w p
  have hm : w.engine.registry.Reticent := Handle.reticent_withBuiltins 0
  have entry : Entry app p := .session []
  have raised : ∃ s : Point (Option Value), Reaches (p, w) s ∧ s.2 = w.setInEvent true true :=
    ⟨_, .tail (.tail (.tail .refl (.change _ _ _)) (.change _ _ _)) (.change _ _ _), rfl⟩
  obtain ⟨s, hr, hs⟩ := raised
  have hi : s.2.engine.memory.inEvent = true := by rw [hs]; rfl
  obtain ⟨flags, executing, sheltered⟩ := event_goals_do_not_nest entry hm rfl rfl s hr
  exact ⟨hm, s, hr, flags.trans hi, executing.mp hi, sheltered hi⟩

end Run

end GoalScript
