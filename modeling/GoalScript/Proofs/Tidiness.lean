import GoalScript.Proofs.Discipline
import GoalScript.Proofs.Tallying

namespace GoalScript

structure Store.Adds (s t : Store) : Prop where
  inEvent : t.memory.inEvent = s.memory.inEvent
  pending : ∃ events, t.memory.pending = s.memory.pending ++ events ∧
    (s.memory.inEvent = true → events = [])

namespace Store

theorem Adds.refl (s : Store) : s.Adds s := ⟨rfl, [], by simp⟩

theorem Adds.trans {s t u : Store} (h : s.Adds t) (k : t.Adds u) : s.Adds u := by
  obtain ⟨first, hf, silent⟩ := h.pending
  obtain ⟨second, hs, silent'⟩ := k.pending
  refine ⟨k.inEvent.trans h.inEvent, first ++ second, by rw [hs, hf, List.append_assoc], ?_⟩
  intro up
  rw [silent up, silent' (h.inEvent.trans up)]
  rfl

theorem allows_adds : Allows Adds where
  refl := .refl
  trans := .trans
  queue s v type value := by
    unfold queue
    split
    · exact .refl s
    · rename_i down
      exact ⟨rfl, _, rfl, fun up => absurd up down⟩
  setInScope s key v scope := by cases scope <;> exact ⟨rfl, [], by simp [setInScope]⟩
  setting _ _ _ := ⟨rfl, [], by simp⟩

end Store

/-- The module's functions add events to the queue, none of them during events. They leave the
in-event flags, the log level and what was put off alone. -/
def Module.Additive (m : Module) : Prop :=
  ∀ function site s,
    ((m.call function site).run s).2.flags = s.flags ∧
      ((m.call function site).run s).2.context.deferred = s.context.deferred ∧
      s.store.Adds ((m.call function site).run s).2.store

def Handle.Additive (h : Handle) : Prop := ∀ entry ∈ h.registry.modules, entry.2.Additive

/-- What adds events and leaves the flags alone is discreet. -/
theorem Handle.Additive.discreet {h : Handle} (ha : h.Additive) : h.Discreet :=
  fun entry he function site s => (ha entry he function site s).1

/-- The modules that every registry starts with are additive. -/
theorem Builtin.additive_of_mem {m : Module} (h : m ∈ all) : m.Additive := by
  intro function site s
  obtain ⟨context, adds, -⟩ := within_all Store.allows_adds m h function site s
  refine ⟨?_, congrArg Context.deferred context, adds⟩
  simp only [Surroundings.flags, context, adds.inEvent]

/-- The registry that engines start with. -/
theorem Handle.additive_withBuiltins (stamp : Nat) : Handle.Additive ⟨.withBuiltins, stamp⟩ :=
  fun _ he => Builtin.additive_of_mem (Registry.mem_withBuiltins he)

namespace World

def Additive (w : World) : Prop := w.engine.registry.Additive

def Calm (w : World) : Prop := w.engine.memory.pending = []

variable {v w : World}

theorem Rests.queues (h : w.Rests v) : w.Queues v [] :=
  ⟨by simp [h.pending], h.deferred, h.inEvent, fun _ => rfl⟩

theorem Queues.calm (h : w.Queues v []) (hw : w.Calm) : v.Calm := by
  rw [Calm, h.pending, hw]
  rfl

theorem queues_withStore {s : Store} (h : w.store.Adds s) :
    ∃ events, w.Queues (w.withStore s) events := by
  obtain ⟨events, added, silent⟩ := h.pending
  exact ⟨events, added, rfl, h.inEvent, silent⟩

end World

namespace Run

/-- What a part comes to has its events accounted for. If none of them is stranded, `before` leads
to `after`. -/
structure Accounted {α : Type} (app : App) (part : Part α) (w : World) (before after : Prop)
    (r : Ending α) : Prop where
  additive : r.2.Additive
  accounts : ∃ t, Accounts app part w t r ∧ (t.stranded = 0 → before → after)

end Run

/-- Callbacks may be due where they are made, and nowhere else. -/
def Task.Ready : Task → World → Prop
  | .goal .., w => w.Calm
  | .fire _, _ => True
  | .recovery .., w => w.Calm

/-- Tasks account for the events and empty the queue, and there are goals only where there is room
for them. -/
def accounting (app : App) : Contract where
  always _ := True
  owes t w := t.app = app ∧ w.Additive
  grants t w r := Run.Accounted app (.run (.await t .done)) w (t.Ready w) r.2.Calm r ∧
    ∀ inv, t = .goal app inv → Run.Full app w → ∃ x, r.1 = .error x

namespace Run

variable {α β : Type} {app : App} {w : World}

theorem Accounted.mono {part : Part α} {before before' after after' : Prop} {r : Ending α}
    (h : Accounted app part w before after r) (hb : before' → before) (ha : after → after') :
    Accounted app part w before' after' r := by
  obtain ⟨t, accounts, leads⟩ := h.accounts
  exact ⟨h.additive, t, accounts, fun none hb' => ha (leads none (hb hb'))⟩

/-- What follows goes on with the events as they have fared before. -/
theorem Accounted.trans {part : Part α} {next whole : Part β} {before mid after : Prop}
    {d : Ending α} {r : Ending β} (h : Accounted app part w before mid d)
    (k : Accounted app next d.2 mid after r)
    (both : ∀ {t t'}, Accounts app part w t d → Accounts app next d.2 t' r →
      Accounts app whole w (t + t') r) : Accounted app whole w before after r := by
  obtain ⟨t, first, leads⟩ := h.accounts
  obtain ⟨t', rest, leads'⟩ := k.accounts
  refine ⟨k.additive, t + t', both first rest, fun none hb => ?_⟩
  have ⟨none, none'⟩ := add_eq_zero.mp none
  exact leads' none' (leads none hb)

def Accountable (app : App) (p : Run α) (before : World → Prop) (after : Ending α → Prop)
    (w : World) : Prop :=
  p.Meets (accounting app) (fun r => Accounted app (.run p) w (before w) (after r) r) w

/-- Parts leave nothing on the queue where nothing has been on it. Those that write to variables may
leave something there where they succeed, and callbacks empty the queue whatever is on it. -/
def tidiness (app : App) : Discipline app where
  Accepts _ := True
  Trusts := Module.Additive
  Allows _ := True
  KeepsAt p := Accountable app p World.Calm fun r => r.2.Calm
  WritesAt p := Accountable app p World.Calm fun r => (∃ x, r.1 = .error x) → r.2.Calm
  DrainsAt p := Accountable app p (fun _ => True) fun r => r.2.Calm

theorem here_tidiness : (tidiness app).Here w ↔ w.Additive :=
  ⟨fun h => h.modules, fun h => ⟨trivial, h⟩⟩

section

variable {before before' : World → Prop} {after : Ending α → Prop} {p : Run α}

theorem Accountable.mono {after' : Ending α → Prop} (h : Accountable app p before after w)
    (hb : before' w → before w) (ha : ∀ r, after r → after' r) :
    Accountable app p before' after' w := Meets.mono h fun r hr => hr.mono hb (ha r)

theorem Accountable.forget (h : Accountable app p before after w) :
    Accountable app p before' (fun _ => True) w := by
  refine Meets.mono h fun r hr => ⟨hr.additive, ?_⟩
  obtain ⟨t, accounts, -⟩ := hr.accounts
  exact ⟨t, accounts, fun _ _ => trivial⟩

theorem accountable_done {result : Except EngineError α} (hw : w.Additive)
    (h : before w → after (result, w)) : Accountable app (done result) before after w :=
  ⟨hw, {}, .done result w, fun _ => h⟩

/-- What holds in between is reached from `before` and leads to `after`. -/
theorem Accountable.andThen {mid : Ending α → Prop} {next : Except EngineError α → Run β}
    {after : Ending β → Prop} (hp : Accountable app p before mid w)
    (hn : ∀ r : Ending α, r.2.Additive →
      Accountable app (next r.1) (fun v => mid (r.1, v)) after r.2) :
    Accountable app (p.andThen next) before after w := by
  refine meets_andThen.mpr (Meets.mono hp fun d hd => ?_)
  exact Meets.mono (hn d hd.additive) fun r hr => hd.trans hr .andThen

/-- Parts account for their events one after the other. -/
theorem Accountable.bind {mid : Ending α → Prop} {f : α → Run β} {after : Ending β → Prop}
    (hp : Accountable app p before mid w)
    (hf : ∀ a v, v.Additive → Accountable app (f a) (fun u => mid (.ok a, u)) after v)
    (he : ∀ x v, mid (.error x, v) → after (.error x, v)) :
    Accountable app (p >>= f) before after w := by
  refine hp.andThen ?_
  rintro ⟨result, v⟩ hv
  cases result with
  | error x => exact accountable_done hv (he x v)
  | ok a => exact hf a v hv

theorem accountable_change {f : World → World} {next : World → Run α} {events : List PendingEvent}
    (queues : w.Queues (f w) events)
    (h : Accountable app (next (f w)) (fun _ => before w) after (f w)) :
    Accountable app (change f next) before after w := by
  refine ⟨trivial, Meets.mono h fun r hr => ⟨hr.additive, ?_⟩⟩
  obtain ⟨t, rest, leads⟩ := hr.accounts
  refine ⟨_, .change queues rest, fun none => leads ?_⟩
  simpa using none

/-- Looking at the world leads nowhere else. -/
theorem accountable_get_bind {f : World → Run β} {after : Ending β → Prop}
    (h : Accountable app (f w) before after w) : Accountable app (get >>= f) before after w :=
  accountable_change (World.Rests.refl w).queues h

theorem accountable_set {v : World} {events : List PendingEvent} {after : Ending PUnit → Prop}
    (queues : w.Queues v events) (hv : v.Additive) (h : before w → after (.ok ⟨⟩, v)) :
    Accountable app (set v : Run PUnit) before after w :=
  accountable_change queues (accountable_done hv h)

end

theorem meets_asEvent {p : Run α} {post : Ending α → Prop}
    (h : p.Meets (accounting app) (fun r =>
      post (r.1, r.2.setInEvent w.engine.context.inEvent w.engine.memory.inEvent))
      (w.setInEvent true true)) : (asEvent p).Meets (accounting app) post w := by
  refine meets_get_bind.mpr ⟨trivial, meets_bind.mpr (meets_set.mpr ⟨trivial, ?_⟩)⟩
  exact meets_afterwards.mpr (h.mono fun _ hr => ⟨trivial, hr⟩)

theorem tidy_asEvent {p : Run α} (h : (tidiness app).Keeps p) :
    (tidiness app).Keeps (asEvent p) := by
  refine fun w here => meets_asEvent ?_
  have inside : (tidiness app).Here (w.setInEvent true true) := ⟨trivial, here.modules⟩
  refine Meets.mono (h (w.setInEvent true true) inside) fun r hr => ?_
  obtain ⟨t, body, leads⟩ := hr.accounts
  exact ⟨hr.additive, t, body.event, leads⟩

theorem ready_of_calm (t : Task) (hw : w.Calm) : t.Ready w := by
  cases t with
  | goal app inv => exact hw
  | fire app => trivial
  | recovery app site effort => exact hw

theorem tidy_await {t : Task} (ha : t.app = app) : (tidiness app).Keeps (await t done) :=
  fun _ here => ⟨⟨ha, here.modules⟩, fun _ hr => hr.1.mono (ready_of_calm t) id⟩

/-- A write that fails queues nothing. -/
theorem tidy_put (name : String) (value : Value) : (tidiness app).Writes (put name value) := by
  refine fun w here => accountable_get_bind ?_
  cases hs : w.store.put name value with
  | error e => exact accountable_done here.modules fun calm _ => calm
  | ok s =>
    obtain ⟨events, queues⟩ := World.queues_withStore (Store.allows_adds.put hs)
    exact accountable_set queues here.modules fun _ => nofun

/-- What has been queued is stranded if not all values can be bound. -/
theorem tidy_bind (values : Table Value) : (tidiness app).Writes (bind values) := by
  have accountable (w : World) (hw : w.Additive) :
      Accountable app (bind values) World.Calm (fun _ => True) w := by
    induction values generalizing w with
    | nil => exact accountable_done hw fun _ => trivial
    | cons entry rest ih =>
      have written : Accountable app (put entry.1 entry.2) World.Calm (fun _ => True) w :=
        Accountable.forget (tidy_put _ _ w (here_tidiness.mpr hw))
      exact written.bind (fun _ v hv => (ih v hv).forget) fun _ _ _ => trivial
  refine fun w here => Meets.mono (accountable w here.modules) ?_
  rintro ⟨result, v⟩ hr
  obtain ⟨t, accounts, -⟩ := hr.accounts
  cases result with
  | error x =>
    refine ⟨hr.additive, _, accounts.stranded, fun none _ _ => ?_⟩
    exact (Multiset.coe_eq_zero _).mp none
  | ok _ => exact ⟨hr.additive, t, accounts, fun _ _ => nofun⟩

/-- Functions may queue events even where they fail. -/
theorem tidy_callModule {m : Module} (hm : m.Additive) (site : Site) (limit : Nat) :
    (tidiness app).Writes (callModule m site limit) := by
  refine fun w here => accountable_get_bind ?_
  obtain ⟨-, deferred, adds⟩ := hm site.step.instruction.function site {
    store := w.store
    context := w.engine.context
    elapsed := w.host.elapsed
    deadline := some (w.host.elapsed + lasting limit)
    journal := w.host.journal }
  obtain ⟨events, added, silent⟩ := adds.pending
  refine accountable_change ⟨added, deferred, adds.inEvent, silent⟩ ?_
  exact accountable_done here.modules fun _ => nofun

/-- Callbacks empty the queue. -/
theorem tidy_fire : (tidiness app).Drains (fire app) := by
  intro w here
  have begun : Accountable app (await (.fire app) done) (fun _ => True) (fun r => r.2.Calm) w :=
    ⟨⟨rfl, here.modules⟩, fun _ hr => hr.1⟩
  exact begun.bind (fun _ _ hv => accountable_done hv id) fun _ _ => id

theorem keeps_tidiness {p : Run α} : (tidiness app).KeepsAt p w ↔
    Accountable app p World.Calm (fun r => r.2.Calm) w := Iff.rfl

theorem drains_tidiness {p : Run α} : (tidiness app).DrainsAt p w ↔
    Accountable app p (fun _ => True) (fun r => r.2.Calm) w := Iff.rfl

theorem tidy_setSetting (owner key : String) (value : Json) :
    (tidiness app).Keeps (setSetting owner key value) := by
  refine fun w here => keeps_tidiness.mpr (accountable_change ⟨?_, rfl, rfl, fun _ => rfl⟩ ?_)
  · exact (List.append_nil _).symm
  · exact accountable_done here.modules id

instance : (tidiness app).Lawful where
  done _ _ here := keeps_tidiness.mpr (accountable_done here.modules id)
  change rests _ h := by
    refine keeps_tidiness.mpr (accountable_change rests.queues ?_)
    exact (keeps_tidiness.mp h).mono rests.queues.calm fun _ => id
  andThen hp hn := keeps_tidiness.mpr <|
    (keeps_tidiness.mp hp).andThen fun r hr => hn r.1 r.2 (here_tidiness.mpr hr)
  drains_change rests _ h := drains_tidiness.mpr <|
    accountable_change rests.queues (drains_tidiness.mp h)
  drains_andThen hp hn := drains_tidiness.mpr <|
    (drains_tidiness.mp hp).andThen fun r hr => hn r.1 r.2 (here_tidiness.mpr hr)
  -- What empties the queue may follow what writes to it.
  writes_andThen hp hf := by
    refine keeps_tidiness.mpr (Accountable.bind hp (fun a v hv => ?_) fun x _ hv => hv ⟨x, rfl⟩)
    have drains := drains_tidiness.mp (hf a v (here_tidiness.mpr hv))
    exact drains.mono (fun _ => trivial) fun _ => id
  put := tidy_put
  bind := tidy_bind
  call := tidy_callModule
  fire := tidy_fire
  event := tidy_asEvent
  setting := tidy_setSetting
  goal _ := tidy_await rfl
  recovery _ _ := tidy_await rfl
  allows _ _ _ := trivial

end Run

end GoalScript
