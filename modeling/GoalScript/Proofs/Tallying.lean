import Mathlib.Data.Multiset.OrderedMonoid
import Mathlib.Tactic.Abel
import GoalScript.Proofs.Steadiness

namespace GoalScript

/-- From `w` to `v` nothing happens to events but that these are queued, and none during events. -/
structure World.Queues (w v : World) (events : List PendingEvent) : Prop where
  pending : v.engine.memory.pending = w.engine.memory.pending ++ events
  deferred : v.engine.context.deferred = w.engine.context.deferred
  inEvent : v.engine.memory.inEvent = w.engine.memory.inEvent
  silent : w.engine.memory.inEvent = true → events = []

namespace World

def waiting (w : World) : Multiset PendingEvent :=
  ↑w.engine.memory.pending + ↑w.engine.context.deferred

def clear (w : World) (delay : Nat) : World :=
  { engine := { w.engine with context := { w.engine.context with deferred := [] } }
    host := { w.host with
      elapsed := w.host.elapsed + lasting delay
      journal := .waited (lasting delay) :: w.host.journal } }

def defer (w : World) (e : PendingEvent) : World :=
  { w with engine := { w.engine with context := w.engine.context.defer e } }

variable {w v : World}

theorem waiting_of_queues {events : List PendingEvent} (h : w.Queues v events) :
    v.waiting = w.waiting + ↑events := by
  simp only [waiting, h.pending, h.deferred, ← Multiset.coe_add]
  abel

theorem waiting_eq_zero :
    w.waiting = 0 ↔ w.engine.memory.pending = [] ∧ w.engine.context.deferred = [] := by
  simp [waiting]

/-- What is taken off the queue waits no more. -/
theorem waiting_take (w : World) : ↑w.engine.memory.pending + w.take.waiting = w.waiting := by
  simp [waiting, take, withStore, store, Store.takePending]

/-- What was put off waits no more once it is taken. -/
theorem waiting_clear (w : World) (delay : Nat) :
    ↑w.engine.context.deferred + (w.clear delay).waiting = w.waiting := by
  simp [waiting, clear, add_comm]

theorem waiting_defer (w : World) (e : PendingEvent) : (w.defer e).waiting = w.waiting + {e} := by
  simp only [waiting, defer, Context.defer, ← Multiset.coe_add, Multiset.coe_singleton]
  abel

end World

/-- How events have fared in a part of a run. -/
structure Tally where
  queued : Multiset PendingEvent := 0
  -- Called back, and their goals have begun.
  started : Multiset PendingEvent := 0
  -- Called back, and it has not come to their goals.
  unstarted : Multiset PendingEvent := 0
  -- Given up, since a callback that was waited for has failed before them.
  lost : Multiset PendingEvent := 0
  -- Of those called back, whether or not it came to their goals, the ones that failed.
  failed : Multiset PendingEvent := 0
  -- Left on the queue where the parameters of a call could not all be bound.
  stranded : Multiset PendingEvent := 0

namespace Tally

instance : Add Tally where
  add t u := {
    queued := t.queued + u.queued
    started := t.started + u.started
    unstarted := t.unstarted + u.unstarted
    lost := t.lost + u.lost
    failed := t.failed + u.failed
    stranded := t.stranded + u.stranded }

section

variable (t u : Tally)

@[simp] theorem queued_add : (t + u).queued = t.queued + u.queued := rfl

@[simp] theorem started_add : (t + u).started = t.started + u.started := rfl

@[simp] theorem unstarted_add : (t + u).unstarted = t.unstarted + u.unstarted := rfl

@[simp] theorem lost_add : (t + u).lost = t.lost + u.lost := rfl

@[simp] theorem failed_add : (t + u).failed = t.failed + u.failed := rfl

@[simp] theorem stranded_add : (t + u).stranded = t.stranded + u.stranded := rfl

end

/-- Where a run has got hold of `held`, it leads from `w` to `v` with no event left out and none
counted twice. -/
def Balances (t : Tally) (held : Multiset PendingEvent) (w v : World) : Prop :=
  held + w.waiting + t.queued = t.started + t.unstarted + t.lost + v.waiting

variable {t t' : Tally} {m m' : Multiset PendingEvent} {u v w : World}

/-- Parts that balance do so one after the other. -/
theorem Balances.add (h : t.Balances m w v) (k : t'.Balances m' v u) :
    (t + t').Balances (m + m') w u := by
  unfold Balances at *
  calc m + m' + w.waiting + (t + t').queued
      = (m + w.waiting + t.queued) + (m' + t'.queued) := by simp only [queued_add]; abel
    _ = t.started + t.unstarted + t.lost + (m' + v.waiting + t'.queued) := by rw [h]; abel
    _ = _ := by
      rw [k]
      simp only [started_add, unstarted_add, lost_add]
      abel

theorem Balances.zero (w : World) : ({} : Tally).Balances 0 w w := by simp [Balances]

theorem Balances.queued {events : List PendingEvent} (h : w.Queues v events) :
    ({ queued := ↑events } : Tally).Balances 0 w v := by
  simp [Balances, World.waiting_of_queues h]

theorem Balances.started (m : Multiset PendingEvent) (w : World) :
    ({ started := m } : Tally).Balances m w w := by simp [Balances]

theorem Balances.unstarted (m f : Multiset PendingEvent) (w : World) :
    ({ unstarted := m, failed := f } : Tally).Balances m w w := by simp [Balances]

theorem Balances.lost (m : Multiset PendingEvent) (w : World) :
    ({ lost := m } : Tally).Balances m w w := by simp [Balances]

/-- No callback has failed that was waited for. -/
def Patient (t : Tally) : Prop := ∀ e ∈ t.failed, e.subscription.awaited = false

theorem patient_add : (t + t').Patient ↔ t.Patient ∧ t'.Patient := by
  simp [Patient, or_imp, forall_and]

end Tally

namespace PendingEvent

def verdict {α : Type} (e : PendingEvent) : Except EngineError α → Tally
  | .ok _ => {}
  | .error _ => { failed := {e} }

theorem balances_verdict {α : Type} (e : PendingEvent) (result : Except EngineError α)
    (w : World) : (e.verdict result).Balances 0 w w := by
  cases result <;> simp [verdict, Tally.Balances]

section

variable {α : Type} (e : PendingEvent) (result : Except EngineError α)

@[simp] theorem queued_verdict : (e.verdict result).queued = 0 := by cases result <;> rfl

@[simp] theorem unstarted_verdict : (e.verdict result).unstarted = 0 := by cases result <;> rfl

@[simp] theorem lost_verdict : (e.verdict result).lost = 0 := by cases result <;> rfl

@[simp] theorem stranded_verdict : (e.verdict result).stranded = 0 := by cases result <;> rfl

end

def call (e : PendingEvent) : GoalCall :=
  { name := e.subscription.goalName, parameters := e.subscription.parameters }

def details (e : PendingEvent) : Table Value :=
  [("event", .object [("type", .text e.subscription.eventType.word), ("value", e.value),
    ("variable", .text e.variableName)])]

def origin (e : PendingEvent) : EventOrigin :=
  { scope := .variable, eventType := e.subscription.eventType }

end PendingEvent

namespace Run

theorem callBack_eq (app : App) (e : PendingEvent) :
    callBack app (runGoal app) e =
      (do let _ ← asEvent (prepare app e.call e.details (some e.origin) >>= runGoal app)) := by
  rw [← enter_eq]
  rfl

theorem ends_asEvent {α : Type} {p : Run α} {w : World} {r : Ending α}
    (h : Ends p (w.setInEvent true true) r) : Ends (asEvent p) w
      (r.1, r.2.setInEvent w.engine.context.inEvent w.engine.memory.inEvent) :=
  .change (.change (h.andThen (.change (.done _ _))))

def serve (app : App) (e : PendingEvent) : Run Unit :=
  if e.subscription.awaited then callBack app (runGoal app) e else modifyContext (·.defer e)

/-- What a run does with events: it goes on, or it has taken events, off the queue or out of those
put off, and goes through them, or it calls one back. -/
inductive Part : Type → Type 1 where
  | run {α : Type} (p : Run α) : Part α
  | serving (events : List PendingEvent) : Part Unit
  | clearing (events : List PendingEvent) : Part Unit
  | calling (e : PendingEvent) : Part Unit

def Full (app : App) (w : World) : Prop := app.config.maxCallDepth ≤ w.engine.stack.length

/-- The part, all tasks included, comes to this, and the events have fared so. -/
inductive Accounts (app : App) : {α : Type} → Part α → World → Tally → Ending α → Prop where
  | done {α : Type} (result : Except EngineError α) (w : World) :
    Accounts app (.run (.done result)) w {} (result, w)
  | change {α : Type} {f : World → World} {next : World → Run α} {w : World}
    {events : List PendingEvent} {t : Tally} {r : Ending α} (queues : w.Queues (f w) events)
    (rest : Accounts app (.run (next (f w))) (f w) t r) :
    Accounts app (.run (.change f next)) w ({ queued := ↑events } + t) r
  | andThen {α β : Type} {p : Run α} {next : Except EngineError α → Run β} {w : World}
    {t t' : Tally} {d : Ending α} {r : Ending β} (first : Accounts app (.run p) w t d)
    (rest : Accounts app (.run (next d.1)) d.2 t' r) :
    Accounts app (.run (p.andThen next)) w (t + t') r
  | await {task : Task} {w : World} {t : Tally} {r : Ending Control}
    (body : Accounts app (.run task.program) w t r) :
    Accounts app (.run (.await task .done)) w t r
  | event {α : Type} {p : Run α} {w : World} {t : Tally} {r : Ending α}
    (body : Accounts app (.run p) (w.setInEvent true true) t r) :
    Accounts app (.run (asEvent p)) w t
      (r.1, r.2.setInEvent w.engine.context.inEvent w.engine.memory.inEvent)
  -- Not all of the values could be bound.
  | stranded {values : Table Value} {w v : World} {t : Tally} {x : EngineError}
    (body : Accounts app (.run (bind values)) w t (.error x, v)) :
    Accounts app (.run (bind values)) w { t with stranded := ↑v.engine.memory.pending }
      (.error x, v)
  | fire {w : World} {t : Tally} {d : Ending Unit}
    (body : Accounts app (.serving w.engine.memory.pending) w.take t d) :
    Accounts app (.run (.await (.fire app) .done)) w t (d.1.map fun _ => .proceed, d.2)
  | clear {w : World} {t : Tally} {d : Ending Unit} (some : w.engine.context.deferred ≠ [])
    (body : Accounts app (.clearing w.engine.context.deferred) (w.clear app.config.eventDelay)
      t d) :
    Accounts app (.run (runDeferred app (runGoal app))) w t d
  | served (w : World) : Accounts app (.serving []) w {} (.ok (), w)
  -- Nobody waits for this one.
  | deferred {e : PendingEvent} {events : List PendingEvent} {w : World} {t : Tally}
    {r : Ending Unit} (later : e.subscription.awaited = false)
    (rest : Accounts app (.serving events) (w.defer e) t r) :
    Accounts app (.serving (e :: events)) w t r
  | called {e : PendingEvent} {events : List PendingEvent} {w v : World} {t t' : Tally}
    {r : Ending Unit} (now : e.subscription.awaited = true)
    (body : Accounts app (.calling e) w t (.ok (), v))
    (rest : Accounts app (.serving events) v t' r) :
    Accounts app (.serving (e :: events)) w (t + t') r
  -- The rest is given up.
  | failed {e : PendingEvent} {events : List PendingEvent} {w v : World} {t : Tally}
    {x : EngineError} (now : e.subscription.awaited = true)
    (body : Accounts app (.calling e) w t (.error x, v)) :
    Accounts app (.serving (e :: events)) w (t + { lost := ↑events }) (.error x, v)
  | cleared (w : World) : Accounts app (.clearing []) w {} (.ok (), w)
  -- Whatever it comes to, the others are called back.
  | past {e : PendingEvent} {events : List PendingEvent} {w : World} {t t' : Tally}
    {d r : Ending Unit} (body : Accounts app (.calling e) w t d)
    (rest : Accounts app (.clearing events) d.2 t' r) :
    Accounts app (.clearing (e :: events)) w (t + t') r
  | started {e : PendingEvent} {w u : World} {t t' : Tally} {inv : Invocation}
    {d : Ending Control}
    (prepared : Accounts app (.run (prepare app e.call e.details (some e.origin)))
      (w.setInEvent true true) t (.ok inv, u)) (room : ¬ Full app u)
    (ran : Accounts app (.run (runGoal app inv)) u t' d) :
    Accounts app (.calling e) w (t + t' + { started := {e} } + e.verdict d.1)
      (d.1.map fun _ => (), d.2.setInEvent w.engine.context.inEvent w.engine.memory.inEvent)
  -- Its goal cannot be found, or something is wrong with its parameters.
  | unprepared {e : PendingEvent} {w u : World} {t : Tally} {x : EngineError}
    (prepared : Accounts app (.run (prepare app e.call e.details (some e.origin)))
      (w.setInEvent true true) t (.error x, u)) :
    Accounts app (.calling e) w (t + { unstarted := {e}, failed := {e} })
      (.error x, u.setInEvent w.engine.context.inEvent w.engine.memory.inEvent)
  | refused {e : PendingEvent} {w u v : World} {t t' : Tally} {inv : Invocation} {x : EngineError}
    (prepared : Accounts app (.run (prepare app e.call e.details (some e.origin)))
      (w.setInEvent true true) t (.ok inv, u)) (room : Full app u)
    (ran : Accounts app (.run (runGoal app inv)) u t' (.error x, v)) :
    Accounts app (.calling e) w (t + t' + { unstarted := {e}, failed := {e} })
      (.error x, v.setInEvent w.engine.context.inEvent w.engine.memory.inEvent)

namespace Part

def program {α : Type} (app : App) : Part α → Run α
  | run p => p
  | serving events => events.forM (serve app)
  | clearing events => events.forM fun e => do let _ ← outcome (callBack app (runGoal app) e)
  | calling e => callBack app (runGoal app) e

/-- The events it has got hold of. -/
def held {α : Type} : Part α → Multiset PendingEvent
  | run _ => 0
  | serving events => ↑events
  | clearing events => ↑events
  | calling e => {e}

/-- The events that are called back, come what may. -/
def due {α : Type} : Part α → Multiset PendingEvent
  | run _ => 0
  | serving _ => 0
  | clearing events => ↑events
  | calling e => {e}

/-- The events that are to blame for its failure. -/
def blamed {α : Type} : Part α → Except EngineError α → Multiset PendingEvent
  | calling e, .error _ => {e}
  | _, _ => 0

def Secluded {α : Type} : Part α → Prop
  | run _ => False
  | _ => True

end Part

namespace Accounts

variable {α : Type} {app : App} {part : Part α} {w : World} {t : Tally} {r : Ending α}

/-- What is accounted for is what the part comes to. -/
theorem ends (h : Accounts app part w t r) : Ends (part.program app) w r := by
  induction h with
  | done result w => exact .done result w
  | change _ _ ih => exact .change ih
  | andThen _ _ ih ih' => exact ih.andThen ih'
  | await _ ih => exact .await ih (.done _ _)
  | event _ ih => exact ends_asEvent ih
  | stranded _ ih => exact ih
  | @fire w t d _ ih =>
    rcases d with ⟨x | _, v⟩
    · exact .await (.change (.change (ih.andThen (.done _ _)))) (.done _ _)
    · exact .await (.change (.change (ih.andThen (.done _ _)))) (.done _ _)
  | @clear w t d some _ ih =>
    refine ends_get_bind ?_
    split
    · contradiction
    · exact .change (.change ih)
  | served w => exact .done _ w
  | @deferred e events w t r later _ ih =>
    have put : serve app e = modifyContext (·.defer e) := if_neg (by simp [later])
    have ended : Ends (serve app e) w (.ok (), w.defer e) := put ▸ .change (.done _ _)
    exact ended.bind_of_ok ih
  | @called e events w v t t' r now _ _ ih ih' =>
    have called : serve app e = callBack app (runGoal app) e := if_pos now
    have ended : Ends (serve app e) w (.ok (), v) := called ▸ ih
    exact ended.bind_of_ok ih'
  | @failed e events w v t x now _ ih =>
    have called : serve app e = callBack app (runGoal app) e := if_pos now
    have ended : Ends (serve app e) w (.error x, v) := called ▸ ih
    exact ended.bind_of_error
  | cleared w => exact .done _ w
  | past _ _ ih ih' => exact (ih.outcome.bind_of_ok (.done (.ok ()) _)).bind_of_ok ih'
  | @started e w u t t' inv d _ _ _ ih ih' =>
    have called : Ends (prepare app e.call e.details (some e.origin) >>= runGoal app)
      (w.setInEvent true true) d := ih.bind_of_ok ih'
    rw [Part.program, callBack_eq]
    rcases d with ⟨x | control, v⟩
    · exact (ends_asEvent called).bind_of_error
    · exact (ends_asEvent called).bind_of_ok (.done _ _)
  | @unprepared e w u t x _ ih =>
    have called : Ends (prepare app e.call e.details (some e.origin) >>= runGoal app)
      (w.setInEvent true true) (.error x, u) := ih.bind_of_error
    rw [Part.program, callBack_eq]
    exact (ends_asEvent called).bind_of_error
  | @refused e w u v t t' inv x _ _ _ ih ih' =>
    have called : Ends (prepare app e.call e.details (some e.origin) >>= runGoal app)
      (w.setInEvent true true) (.error x, v) := ih.bind_of_ok ih'
    rw [Part.program, callBack_eq]
    exact (ends_asEvent called).bind_of_error

/-- All events are accounted for. -/
theorem balances (h : Accounts app part w t r) : t.Balances part.held w r.2 := by
  induction h with
  | done result w => exact .zero w
  | change queues _ ih => simpa [Part.held] using (Tally.Balances.queued queues).add ih
  | andThen _ _ ih ih' => simpa [Part.held] using ih.add ih'
  | await _ ih => exact ih
  | event _ ih => exact ih
  | stranded _ ih => exact ih
  | @fire w t d _ ih =>
    have ih : ↑w.engine.memory.pending + w.take.waiting + t.queued = _ := ih
    rw [w.waiting_take] at ih
    simpa [Tally.Balances, Part.held] using ih
  | @clear w t d _ _ ih =>
    have ih : ↑w.engine.context.deferred + (w.clear _).waiting + t.queued = _ := ih
    rw [w.waiting_clear] at ih
    simpa [Tally.Balances, Part.held] using ih
  | served w => exact .zero w
  | @deferred e events w t r _ _ ih =>
    have ih : ↑events + (w.defer e).waiting + t.queued = _ := ih
    rw [w.waiting_defer] at ih
    refine Eq.trans ?_ ih
    simp only [Part.held, ← Multiset.cons_coe, ← Multiset.singleton_add]
    abel
  | called _ _ _ ih ih' => exact ih.add ih'
  | failed _ _ ih => exact ih.add (.lost _ _)
  | cleared w => exact .zero w
  | past _ _ ih ih' => exact ih.add ih'
  | @started e w u t t' inv d _ _ _ ih ih' =>
    have called : (t + t' + { started := {e} } + e.verdict d.1).Balances (0 + 0 + {e} + 0) _ d.2 :=
      ((ih.add ih').add (.started {e} _)).add (e.balances_verdict d.1 _)
    simp only [zero_add, add_zero] at called
    exact called
  | @unprepared e w u t x _ ih =>
    have called := ih.add (.unstarted {e} {e} _)
    simp only [Part.held, zero_add] at called
    exact called
  | @refused e w u v t t' inv x _ _ _ ih ih' =>
    have called := (ih.add ih').add (.unstarted {e} {e} _)
    simp only [Part.held, zero_add] at called
    exact called

/-- The memory's flag is as it was, and nothing is queued where all is run for events. -/
theorem secluded (h : Accounts app part w t r) :
    r.2.engine.memory.inEvent = w.engine.memory.inEvent ∧
      (w.engine.memory.inEvent = true ∨ part.Secluded → t.queued = 0) := by
  induction h with
  | done result w => exact ⟨rfl, fun _ => rfl⟩
  | change queues _ ih =>
    refine ⟨ih.1.trans queues.inEvent, fun h => ?_⟩
    have up := h.resolve_right id
    simp [queues.silent up, ih.2 (.inl (queues.inEvent.trans up))]
  | andThen _ _ ih ih' =>
    refine ⟨ih'.1.trans ih.1, fun h => ?_⟩
    have up := h.resolve_right id
    simp [ih.2 (.inl up), ih'.2 (.inl (ih.1.trans up))]
  | await _ ih => exact ih
  | event _ ih => exact ⟨rfl, fun _ => ih.2 (.inl rfl)⟩
  | stranded _ ih => exact ih
  | fire _ ih => exact ⟨ih.1, fun _ => ih.2 (.inr trivial)⟩
  | clear _ _ ih => exact ⟨ih.1, fun _ => ih.2 (.inr trivial)⟩
  | served w => exact ⟨rfl, fun _ => rfl⟩
  | deferred _ _ ih => exact ⟨ih.1, fun _ => ih.2 (.inr trivial)⟩
  | called _ _ _ ih ih' =>
    exact ⟨ih'.1.trans ih.1, fun _ => by simp [ih.2 (.inr trivial), ih'.2 (.inr trivial)]⟩
  | failed _ _ ih => exact ⟨ih.1, fun _ => by simp [ih.2 (.inr trivial)]⟩
  | cleared w => exact ⟨rfl, fun _ => rfl⟩
  | past _ _ ih ih' =>
    exact ⟨ih'.1.trans ih.1, fun _ => by simp [ih.2 (.inr trivial), ih'.2 (.inr trivial)]⟩
  | @started e w u t t' inv d _ _ _ ih ih' =>
    refine ⟨rfl, fun _ => ?_⟩
    simp [ih.2 (.inl rfl), ih'.2 (.inl ih.1)]
  | unprepared _ ih => exact ⟨rfl, fun _ => by simp [ih.2 (.inl rfl)]⟩
  | refused _ _ _ ih ih' => exact ⟨rfl, fun _ => by simp [ih.2 (.inl rfl), ih'.2 (.inl ih.1)]⟩

/-- What has to be called back has been called back. -/
theorem due_le (h : Accounts app part w t r) : part.due ≤ t.started + t.unstarted := by
  induction h with
  | @past e events w t t' d r _ _ ih ih' =>
    calc ({e} : Multiset PendingEvent) + ↑events
        ≤ (t.started + t.unstarted) + (t'.started + t'.unstarted) := add_le_add ih ih'
      _ = (t + t').started + (t + t').unstarted := by
        simp only [Tally.started_add, Tally.unstarted_add]
        abel
  | @started e w u t t' inv d _ _ _ _ _ =>
    refine le_trans ?_ (Multiset.le_add_right _ _)
    refine le_trans ?_ (Multiset.le_add_right _ _)
    exact Multiset.le_add_left _ _
  | @unprepared e w u t x _ _ =>
    refine le_trans ?_ (Multiset.le_add_left _ _)
    exact Multiset.le_add_left _ _
  | @refused e w u v t t' inv x _ _ _ _ _ =>
    refine le_trans ?_ (Multiset.le_add_left _ _)
    exact Multiset.le_add_left _ _
  | _ => exact Multiset.zero_le _

/-- Where nothing waits but what is called back come what may, nothing waits afterwards. -/
theorem clears {events : List PendingEvent} {r : Ending Unit}
    (h : Accounts app (.clearing events) w t r) (hw : w.waiting = 0) : r.2.waiting = 0 := by
  have balance : ↑events + w.waiting + t.queued = t.started + t.unstarted + t.lost + r.2.waiting :=
    h.balances
  have due : ↑events ≤ t.started + t.unstarted := h.due_le
  rw [hw, h.secluded.2 (.inr trivial), add_zero, add_zero] at balance
  rw [balance, add_assoc] at due
  exact (add_eq_zero.mp (nonpos_iff_eq_zero.mp ((add_le_iff_nonpos_right _).mp due))).2

/-- A callback that has failed is among those that have. -/
theorem blamed_le (h : Accounts app part w t r) : part.blamed r.1 ≤ t.failed := by
  cases h with
  | @started e w u t t' inv d _ _ _ =>
    rcases d with ⟨x | control, v⟩
    · exact Multiset.le_add_left _ _
    · exact Multiset.zero_le _
  | unprepared _ => exact Multiset.le_add_left _ _
  | refused _ _ _ => exact Multiset.le_add_left _ _
  | _ => exact Multiset.zero_le _

/-- A callback that begins no goal has failed. -/
theorem unstarted_le (h : Accounts app part w t r) : t.unstarted ≤ t.failed := by
  induction h with
  | change _ _ ih => simpa using ih
  | andThen _ _ ih ih' => exact add_le_add ih ih'
  | called _ _ _ ih ih' => exact add_le_add ih ih'
  | failed _ _ ih => simpa using ih
  | past _ _ ih ih' => exact add_le_add ih ih'
  | @started e w u t t' inv d _ _ _ ih ih' =>
    have called : t.unstarted + t'.unstarted ≤ t.failed + t'.failed := add_le_add ih ih'
    simpa using called.trans (Multiset.le_add_right _ _)
  | unprepared _ ih => exact add_le_add ih le_rfl
  | refused _ _ _ ih ih' => exact add_le_add (add_le_add ih ih') le_rfl
  | done => exact le_rfl
  | served => exact le_rfl
  | cleared => exact le_rfl
  | await _ ih => exact ih
  | event _ ih => exact ih
  | stranded _ ih => exact ih
  | fire _ ih => exact ih
  | clear _ _ ih => exact ih
  | deferred _ _ ih => exact ih

/-- Events are given up only where a callback has failed that was waited for. -/
theorem lost_eq_zero (h : Accounts app part w t r) (hf : t.Patient) : t.lost = 0 := by
  induction h with
  | @failed e events w v t x now body _ =>
    have blamed : {e} ≤ t.failed := body.blamed_le
    have member : e ∈ t.failed := Multiset.singleton_le.mp blamed
    have later := (Tally.patient_add.mp hf).1 e member
    rw [now] at later
    cases later
  | change _ _ ih => simp [ih (Tally.patient_add.mp hf).2]
  | andThen _ _ ih ih' =>
    have ⟨hf, hf'⟩ := Tally.patient_add.mp hf
    simp [ih hf, ih' hf']
  | called _ _ _ ih ih' =>
    have ⟨hf, hf'⟩ := Tally.patient_add.mp hf
    simp [ih hf, ih' hf']
  | past _ _ ih ih' =>
    have ⟨hf, hf'⟩ := Tally.patient_add.mp hf
    simp [ih hf, ih' hf']
  | @started e w u t t' inv d _ _ _ ih ih' =>
    have hf := (Tally.patient_add.mp (Tally.patient_add.mp hf).1).1
    have ⟨hf, hf'⟩ := Tally.patient_add.mp hf
    simp [ih hf, ih' hf']
  | unprepared _ ih => simp [ih (Tally.patient_add.mp hf).1]
  | refused _ _ _ ih ih' =>
    have ⟨hf, hf'⟩ := Tally.patient_add.mp (Tally.patient_add.mp hf).1
    simp [ih hf, ih' hf']
  | done => rfl
  | served => rfl
  | cleared => rfl
  | await _ ih => exact ih hf
  | event _ ih => exact ih hf
  | stranded _ ih => exact ih hf
  | fire _ ih => exact ih hf
  | clear _ _ ih => exact ih hf
  | deferred _ _ ih => exact ih hf

end Accounts

end Run

end GoalScript
