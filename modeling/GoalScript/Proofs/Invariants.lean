import GoalScript.Proofs.Discipline
import GoalScript.Proofs.Machine

namespace GoalScript

def Module.Writes (R : Store → Store → Prop) (m : Module) : Prop :=
  ∀ function site (s : Surroundings), R s.store ((m.call function site).run s).2.store

/-- What is to hold wherever a run gets, and what makes it hold. -/
structure Invariant where
  Holds : World → Prop
  -- The settings with which it can hold.
  Accepts : Settings → Prop
  -- What may be done to stores.
  Writes : Store → Store → Prop
  -- The steps that may be attempted.
  Attempts : Site → Prop
  writes : Store.Allows Writes
  settings {w : World} (h : Holds w) : Accepts w.host.shared.settings
  modules {w : World} (h : Holds w) :
    ∀ entry ∈ w.engine.registry.registry.modules, entry.2.Writes Writes
  of_same {v w : World} (h : Holds w) (settings : v.host.shared.settings = w.host.shared.settings)
    (root : v.engine.root = w.engine.root)
    (modules : ∀ entry ∈ v.engine.registry.registry.modules, entry.2.Writes Writes) : Holds v
  withStore {w : World} {s : Store} (h : Holds w) (written : Writes w.store s) :
    Holds (w.withStore s)
  setSetting {w : World} (h : Holds w) (owner key : String) (value : Json) :
    Holds { w with host := { w.host with shared := { w.host.shared with
      settings := w.host.shared.settings.set owner key value } } }
  attempts {w : World} {site : Site} (accepts : Accepts w.host.shared.settings)
    (passes : Run.passesOver w site = false) : Attempts site

def Task.Within (attempts : Site → Prop) : Task → Prop
  | .goal .. => True
  | .fire _ => True
  | .recovery _ site _ => attempts site

namespace Invariant

def contract (I : Invariant) : Contract where
  always := I.Holds
  owes t w := t.Within I.Attempts ∧ I.Holds w
  grants _ _ e := I.Holds e.2

open Run

def discipline (I : Invariant) (app : App) : Discipline app where
  Accepts := I.Accepts
  Trusts := Module.Writes I.Writes
  Allows := I.Attempts
  KeepsAt p w := I.Holds w → p.Meets I.contract (fun e => I.Holds e.2) w
  WritesAt p w := I.Holds w → p.Meets I.contract (fun e => I.Holds e.2) w
  DrainsAt p w := I.Holds w → p.Meets I.contract (fun e => I.Holds e.2) w

variable {α β : Type} {I : Invariant} {app : App} {v w : World}

/-- The world has changed in what the invariant does not speak of. -/
theorem of_eq (h : I.Holds w) (settings : v.host.shared.settings = w.host.shared.settings)
    (root : v.engine.root = w.engine.root)
    (modules : v.engine.registry.registry.modules = w.engine.registry.registry.modules) :
    I.Holds v := I.of_same h settings root (modules ▸ I.modules h)

theorem here (h : I.Holds w) : (I.discipline app).Here w := ⟨I.settings h, I.modules h⟩

theorem meets_of_keeps {p : Run α} (keeps : (I.discipline app).Keeps p) (h : I.Holds w) :
    p.Meets I.contract (fun e => I.Holds e.2) w := keeps w (here h) h

theorem keeps_of_meets {p : Run α}
    (h : ∀ w, I.Holds w → p.Meets I.contract (fun e => I.Holds e.2) w) :
    (I.discipline app).Keeps p := fun w _ hw => h w hw

theorem keepsAt_andThen {p : Run α} {next : Except EngineError α → Run β}
    (hp : (I.discipline app).KeepsAt p w) (hn : ∀ result, (I.discipline app).Keeps (next result)) :
    (I.discipline app).KeepsAt (p.andThen next) w := by
  intro hw
  apply meets_andThen.mpr
  apply Meets.mono (hp hw)
  intro e he
  exact meets_of_keeps (hn e.1) he

/-- Where the invariant holds a part keeps it, and so does what goes on from there. -/
theorem keepsAt_bind {p : Run α} {f : α → Run β} (hp : (I.discipline app).KeepsAt p w)
    (hf : ∀ a, (I.discipline app).Keeps (f a)) : (I.discipline app).KeepsAt (p >>= f) w := by
  apply keepsAt_andThen hp
  intro result
  cases result with
  | ok a => exact hf a
  | error e => exact keeps_of_meets fun _ hv => hv

theorem keepsAt_change {f : World → World} {next : World → Run α} (rests : w.Rests (f w))
    (here : (I.discipline app).Here (f w)) (h : (I.discipline app).KeepsAt (next (f w)) (f w)) :
    (I.discipline app).KeepsAt (.change f next) w := by
  intro hw
  have after : I.Holds (f w) := I.of_same hw rests.settings rests.root here.modules
  exact ⟨after, h after⟩

theorem keepsAt_set (h : I.Holds w → I.Holds v) :
    (I.discipline app).KeepsAt (set v : Run PUnit) w :=
  fun hw => meets_set.mpr ⟨h hw, h hw⟩

theorem keeps_get_bind {f : World → Run β} (h : ∀ w, (I.discipline app).KeepsAt (f w) w) :
    (I.discipline app).Keeps (get >>= f) :=
  keeps_of_meets fun w hw => meets_get_bind.mpr ⟨hw, h w hw⟩

theorem keeps_update {f : World → World} (h : ∀ w, I.Holds w → I.Holds (f w)) :
    (I.discipline app).Keeps (update f) :=
  keeps_of_meets fun w hw => meets_update.mpr ⟨h w hw, h w hw⟩

theorem keeps_await {t : Task} (h : t.Within I.Attempts) :
    (I.discipline app).Keeps (await t done) := keeps_of_meets fun _ hw => ⟨⟨h, hw⟩, fun _ he => he⟩

theorem keeps_put (name : String) (value : Value) :
    (I.discipline app).Keeps (put name value) := by
  apply keeps_get_bind
  intro w
  cases hs : w.store.put name value with
  | error e => exact fun hw => hw
  | ok s => exact keepsAt_set fun hw => I.withStore hw (I.writes.put hs)

theorem keeps_bind (values : Table Value) : (I.discipline app).Keeps (bind values) := by
  induction values with
  | nil => exact fun _ _ hw => hw
  | cons entry rest ih =>
    exact fun w here => keepsAt_bind (keeps_put entry.1 entry.2 w here) fun _ => ih

/-- A module whose functions write in no other way keeps the invariant. -/
theorem keeps_callModule {m : Module} (hm : m.Writes I.Writes) (site : Site) (limit : Nat) :
    (I.discipline app).Keeps (callModule m site limit) := by
  apply keeps_get_bind
  intro w
  have written := hm site.step.instruction.function site {
    store := w.store
    context := w.engine.context
    elapsed := w.host.elapsed
    deadline := some (w.host.elapsed + lasting limit)
    journal := w.host.journal }
  refine keepsAt_bind (keepsAt_set fun hw => ?_) fun _ => keeps_of_meets fun _ hv => hv
  exact of_eq (I.withStore hw written) rfl rfl rfl

theorem keeps_asEvent {p : Run α} (h : (I.discipline app).Keeps p) :
    (I.discipline app).Keeps (asEvent p) := by
  apply keeps_get_bind
  intro w
  refine keepsAt_bind (keepsAt_set fun hw => of_eq hw rfl rfl rfl) fun _ => ?_
  apply keeps_of_meets
  intro v hv
  apply meets_afterwards.mpr
  apply Meets.mono (meets_of_keeps h hv)
  intro e he
  have restored := of_eq (v := e.2.setInEvent w.engine.context.inEvent w.engine.memory.inEvent)
    he rfl rfl rfl
  exact ⟨restored, restored⟩

instance : (I.discipline app).Lawful where
  done _ := keeps_of_meets fun _ hw => hw
  change := keepsAt_change
  andThen := keepsAt_andThen
  drains_change := keepsAt_change
  drains_andThen := keepsAt_andThen
  writes_andThen := keepsAt_bind
  put := keeps_put
  bind := keeps_bind
  call := keeps_callModule
  fire := by
    have begun : (I.discipline app).Keeps (await (.fire app) done) := keeps_await trivial
    exact fun w here => keepsAt_bind (begun w here) fun _ => keeps_of_meets fun _ hv => hv
  event := keeps_asEvent
  setting owner key value := keeps_update fun _ hw => I.setSetting hw owner key value
  goal _ := keeps_await trivial
  recovery allowed _ := keeps_await allowed
  allows here _ passes := I.attempts here.settings passes

theorem keeps_callBackAll (I : Invariant) (app : App) :
    (I.discipline app).Keeps (callBackAll app (runGoal app)) := by
  have taken : (I.discipline app).Keeps takePending := by
    apply keeps_get_bind
    intro w
    refine keepsAt_bind (keepsAt_set fun hw => ?_) fun _ => Discipline.keeps_pure _
    exact of_eq hw rfl rfl rfl
  refine taken.bind fun events => ?_
  refine (Discipline.keeps_forM (fun e => ?_) events).bind fun _ => Discipline.keeps_pure _
  split
  · exact Discipline.keeps_callBack e
  · exact keeps_update fun _ hw => of_eq hw rfl rfl rfl

theorem keeps_runDeferred (I : Invariant) (app : App) :
    (I.discipline app).Keeps (runDeferred app (runGoal app)) := by
  have cleared : (I.discipline app).Keeps (modifyContext fun c => { c with deferred := [] }) :=
    keeps_update fun _ hw => of_eq hw rfl rfl rfl
  refine Discipline.keeps_get_bind fun w here => ?_
  split
  · exact Discipline.keeps_pure _ w here
  · refine cleared.bind (fun _ => (Discipline.keeps_wait _).bind fun _ => ?_) w here
    refine Discipline.keeps_forM (fun e => ?_) _
    exact (Discipline.keeps_callBack e).outcome.bind fun _ => Discipline.keeps_pure _

/-- The programs of tasks keep every invariant. -/
theorem sound (I : Invariant) : I.contract.Sound := by
  rintro t w ⟨within, hw⟩
  cases t with
  | goal app inv =>
    exact meets_of_keeps (Discipline.keeps_goalRun (I.keeps_runDeferred app) inv) hw
  | fire app => exact meets_of_keeps (I.keeps_callBackAll app) hw
  | recovery app site effort =>
    have allowed : (I.discipline app).Allows site := within
    exact meets_of_keeps (Discipline.keeps_recovery allowed effort) hw

theorem lenient (I : Invariant) : I.contract.Lenient where
  idle _ _ h := h.2
  full _ _ _ h := h.2

/-- The invariant holds at the end of a run, and everywhere on the way. -/
theorem run {p : Run α} (keeps : (I.discipline app).Keeps p) (h : I.Holds w) :
    I.Holds (p.run w).2 ∧ ∀ s, Reaches (p, w) s →
      s.1.Meets I.contract (fun e => I.Holds e.2) s.2 ∧ I.Holds s.2 := by
  have meets := meets_of_keeps keeps h
  constructor
  · exact meets.ending (I.sound.perform I.lenient)
  · intro s reaches
    exact reaches.meets I.sound meets h

end Invariant

end GoalScript
