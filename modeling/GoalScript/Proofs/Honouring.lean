import GoalScript.Proofs.Invariants
import GoalScript.Proofs.Ledger
import GoalScript.Proofs.Termination

namespace GoalScript

/-- The key is in the ledger, and no module at hand takes anything out of it. -/
structure World.Settled (key : String) (w : World) : Prop where
  recorded : w.store.isRecorded key = true
  faithful : w.engine.registry.Faithful

def Site.RunsOnceAs (site : Site) (key : String) : Prop :=
  site.step.runOnce = true ∧ ledgerKey site.goal site.step = key

namespace World

variable {key : String} {v w : World}

/-- All that counts are the settings and the modules. -/
theorem Settled.of_same (h : w.Settled key)
    (settings : v.host.shared.settings = w.host.shared.settings)
    (faithful : v.engine.registry.Faithful) : v.Settled key where
  recorded := by
    have same : v.store.isRecorded key = w.store.isRecorded key :=
      congrArg (fun s : Settings => (s.get? Settings.ledgerOwner key).isSome) settings
    exact same.trans h.recorded
  faithful := faithful

/-- A key stays settled in a store that remembers it. -/
theorem Settled.withStore (h : w.Settled key) {s : Store} (hs : w.store.Remembers s) :
    (w.withStore s).Settled key := ⟨hs key h.recorded, h.faithful⟩

/-- A step whose key is in the ledger is passed over. -/
theorem passesOver_of_recorded (recorded : w.store.isRecorded key = true) {site : Site}
    (hs : site.RunsOnceAs key) : Run.passesOver w site = true := by
  obtain ⟨once, rfl⟩ := hs
  simp [Run.passesOver, once, recorded]

end World

/-- A settled key stays settled, and only steps with other keys are attempted. -/
def honouring (key : String) : Invariant where
  Holds w := w.Settled key
  Accepts settings := (settings.get? Settings.ledgerOwner key).isSome = true
  Writes := Store.Remembers
  Attempts site := ¬ site.RunsOnceAs key
  writes := Store.allows_remembers
  settings h := h.recorded
  modules h := h.faithful
  of_same h settings _ faithful := h.of_same settings faithful
  withStore h written := h.withStore written
  -- An answer, or the entry of another step, takes nothing out of the ledger.
  setSetting h _ _ _ := ⟨Settings.isSome_set _ _ _ h.recorded, h.faithful⟩
  attempts recorded passes hs := by
    rw [World.passesOver_of_recorded recorded hs] at passes
    cases passes

namespace Run

variable {α β : Type} {app : App} {key : String} {w : World}

theorem Entry.honours {p : Run α} (h : Entry app p) :
    ((honouring key).discipline app).Keeps p := by
  cases h with
  | session names =>
    exact Discipline.keeps_session ((honouring key).keeps_runDeferred app) names
  | goal inv => exact Discipline.Lawful.goal inv
  | call call values => exact Discipline.keeps_enter call values none
  | eventGoal call origin values => exact Discipline.keeps_runEventGoal call origin values

/-- Runs that hosts have started one after the other, on engines that share their settings. Each
run has come to its end, or has been left somewhere on its way. -/
inductive History : World → World → Prop where
  | start (w : World) : History w w
  | ended {u w : World} (before : History u w) {α : Type} {app : App} {p : Run α}
    (entry : Entry app p) : History u (p.run w).2
  | left {u w : World} (before : History u w) {α : Type} {app : App} {p : Run α} {s : Point α}
    (entry : Entry app p) (reaches : Reaches (p, w) s) : History u s.2
  -- Another engine takes its turn, or one that has been reset.
  | engine {u w : World} (before : History u w) (v : World)
    (settings : v.host.shared.settings = w.host.shared.settings)
    (faithful : v.engine.registry.Faithful) : History u v

/-- Here nothing is done for a step that runs once under the key. Modules are called, errors
announced and handlers followed in attempts at a step, and its own events stand around them: no
attempt is about to begin, and where it is the step's turn the run goes on behind it as it is. -/
structure Point.Spares (key : String) (s : Point α) : Prop where
  recorded : s.2.store.isRecorded key = true
  attempts : ∀ app site effort next, s.1 = await (.recovery app site effort) next →
    ¬ site.RunsOnceAs key
  passes : ∀ app nested site next, s.1 = (runStep app nested site).andThen next →
    site.RunsOnceAs key → Next s (next (.ok .proceed), s.2)

variable {u w : World}

/-- To look whether a step is to be passed over is all that is done for one that is. -/
theorem next_runStep {site : Site} (passes : passesOver w site = true) (nested : Nested)
    (next : Except EngineError Control → Run α) :
    Next ((runStep app nested site).andThen next, w) (next (.ok .proceed), w) := by
  have looked : Next ((runStep app nested site).andThen next, w)
      (((if passesOver w site then pure .proceed else do
        update (enterStep site.step)
        afterwards (performStep app nested site) (leaveStep w)) : Run Control).andThen next, w) :=
    .change id _ w
  rwa [if_pos passes] at looked

theorem Meets.spares {p : Run α} {post : Ending α → Prop}
    (h : p.Meets (honouring key).contract post w) (hw : w.Settled key) :
    Point.Spares key (p, w) where
  recorded := hw.recorded
  attempts app site effort next hp := by
    cases hp
    exact h.1.1
  passes app nested site next hp hs := by
    cases hp
    exact next_runStep (World.passesOver_of_recorded hw.recorded hs) nested next

/-- Nothing in a run unsettles the key. -/
theorem Entry.settled {p : Run α} (h : Entry app p) (hw : w.Settled key) :
    (p.run w).2.Settled key ∧ ∀ s, Reaches (p, w) s → s.2.Settled key ∧ s.Spares key := by
  obtain ⟨ended, reached⟩ := Invariant.run h.honours hw
  refine ⟨ended, fun s reaches => ?_⟩
  obtain ⟨meets, settled⟩ := reached s reaches
  exact ⟨settled, meets.spares settled⟩

/-- A key that is settled stays settled through all that hosts may start. -/
theorem History.settled (h : History u w) (hu : u.Settled key) : w.Settled key := by
  induction h with
  | start => exact hu
  | ended _ entry ih => exact (entry.settled ih).1
  | left _ entry reaches ih => exact ((entry.settled ih).2 _ reaches).1
  | engine _ v settings faithful ih =>
    have recorded := ih.recorded
    rw [Store.isRecorded, World.store, ← settings] at recorded
    exact ⟨recorded, faithful⟩

/-- A key that is in the ledger once is in it ever after, and nothing is done again for its step.
Modules are asked to take nothing out of the ledger themselves. -/
theorem recorded_steps_stay_done (recorded : u.store.isRecorded key = true)
    (faithful : u.engine.registry.Faithful) (history : History u w) :
    w.store.isRecorded key = true ∧
    ∀ {α : Type} {app : App} {p : Run α}, Entry app p →
      (p.run w).2.store.isRecorded key = true ∧ ∀ s, Reaches (p, w) s → s.Spares key := by
  have settled : w.Settled key := history.settled ⟨recorded, faithful⟩
  refine ⟨settled.recorded, fun entry => ?_⟩
  obtain ⟨ended, reached⟩ := entry.settled settled
  exact ⟨ended.recorded, fun s reaches => (reached s reaches).2⟩

/-- Another engine runs the session again. -/
theorem recorded_steps_stay_done_again :
    let setup : Step := { Step.new "variable" {
      function := "set", parameters := [⟨"name", .text "x"⟩] } with runOnce := true }
    let goal : Goal := .new "Main" [setup]
    let app : App := ⟨.ofFile { goals := [goal] }, {}⟩
    let key := ledgerKey goal setup
    let shared : Shared := { settings := ({} : Settings).set Settings.ledgerOwner key .null }
    let first : World := ⟨.start 0 ⟨.withBuiltins, 0⟩ false, { shared }⟩
    let p := session app ["Main"]
    let second : World := ⟨.start 1 ⟨.withBuiltins, 0⟩ false, (p.run first).2.host⟩
    second.store.isRecorded key = true ∧ (p.run second).2.store.isRecorded key = true ∧
      ∀ s, Reaches (p, second) s → s.Spares key := by
  intro setup goal app key shared first p second
  have entry : Entry app p := .session ["Main"]
  have recorded : first.store.isRecorded key = true := by
    simp only [Store.isRecorded, World.store, first, shared, Settings.get?_set, and_self,
      ↓reduceIte, Option.isSome_some]
  have builtins := Handle.faithful_withBuiltins 0
  have history : History first second := .engine (.ended (.start first) entry) second rfl builtins
  obtain ⟨kept, spared⟩ := recorded_steps_stay_done recorded builtins history
  exact ⟨kept, spared entry⟩

end Run

end GoalScript
