import GoalScript.Pool.Service
import GoalScript.Proofs.Notices
import GoalScript.Proofs.Rearranging
import GoalScript.Proofs.Rootedness

namespace GoalScript

/-- What an engine can be asked to run. -/
inductive Errand where
  | session (names : List String)
  | goal (inv : Invocation)
  | call (goalCall : GoalCall) (values : Table Value)
  | events (o : Occasion) (values : Table Value)
  | errorEvents (o : Occasion) (e : EngineError)

namespace Errand

variable {app : App}

def program (app : App) : Errand → Run Control
  | .session names => do return .returned (← Run.session app names)
  | .goal inv => Run.runGoal app inv
  | .call goalCall values => Run.callGoal app (Run.runGoal app) goalCall values
  | .events o values => do
    Run.announce app (Run.runGoal app) o values
    return .proceed
  | .errorEvents o e => do
    Run.announceError app (Run.runGoal app) o e
    return .proceed

open Run Run.Discipline in
theorem keeps_program {D : Discipline app} [D.Lawful]
    (deferred : D.Keeps (runDeferred app (runGoal app))) (errand : Errand) :
    D.Keeps (errand.program app) := by
  cases errand with
  | session names => exact (keeps_session deferred names).bind fun _ => keeps_pure _
  | goal inv => exact Lawful.goal inv
  | call goalCall values => exact keeps_enter goalCall values none
  | events o values => exact (keeps_announce o values).bind fun _ => keeps_pure _
  | errorEvents o e => exact (keeps_announceError o e).bind fun _ => keeps_pure _

end Errand

/-- A module that is put in leaves the mode of the memory alone. -/
def Rearrangement.Trusted : Rearrangement → Prop
  | register _ m => m.KeepsMode
  | _ => True

theorem Handle.KeepsMode.rearrange {h : Handle} {change : Rearrangement} (keeps : h.KeepsMode)
    (trusted : change.Trusted) (fresh : Nat) :
    (h.change fresh fun r => r.rearrange change).KeepsMode := by
  intro entry member
  cases change with
  | register name m =>
    rcases Table.mem_insert member with rfl | old
    · exact trusted
    · exact keeps entry old
  | remove name => exact keeps entry (List.mem_filter.mp member |>.1)
  | addAlias name target => exact keeps entry member
  | clearAlias name => exact keeps entry member
  | disable name => exact keeps entry member
  | enable name => exact keeps entry member

/-- What a tenant does with an engine, or what happens around it meanwhile. -/
inductive Act where
  | run (errand : Errand)
  -- The errand is begun, and given up after so many steps. What a function that is given up midway
  -- has done by then is done by further acts.
  | abandon (errand : Errand) (steps : Nat)
  | memory (operation : Operation)
  | context (f : Context → Context)
  | rearrange (change : Rearrangement)
  | withRegistry (registry : Handle)
  | rebase (registry : Handle)
  -- Other engines of the app write what they share, and time passes.
  | around (f : Host → Host)
  -- The engine goes back, and another tenant takes it.
  | reset

namespace Act

inductive Outcome where
  | nothing
  | events (handedOut : List PendingEvent)
  | ending (result : Except EngineError Control)

/-- What the act brings in leaves the mode of the memory alone. -/
def Trusted : Act → Prop
  | .rearrange change => change.Trusted
  | .withRegistry registry => registry.KeepsMode
  | .rebase registry => registry.KeepsMode
  | _ => True

def baseAfter (base : Handle) : Act → Handle
  | .rebase registry => registry
  | _ => base

def rebases : Act → Bool
  | .rebase _ => true
  | _ => false

def perform (app : App) (w : World) : Act → Outcome × World
  | .run errand =>
    let (result, v) := (errand.program app).run w
    (.ending result, v)
  | .abandon errand steps => (.nothing, (Run.advance steps (errand.program app, w)).2)
  | .memory operation =>
    let (events, s) := w.store.operate operation
    (.events events, w.withStore s)
  | .context f =>
    (.nothing, { w with engine := { w.engine with context := f w.engine.context } })
  | .rearrange change =>
    let registry := w.engine.registry.change w.host.freshStamp fun r => r.rearrange change
    let host := { w.host with freshStamp := w.host.freshStamp + 1 }
    (.nothing, { engine := w.engine.withRegistry registry, host })
  | .withRegistry registry => (.nothing, { w with engine := w.engine.withRegistry registry })
  | .rebase registry => (.nothing, { w with engine := w.engine.rebase registry })
  | .around f => (.nothing, { w with host := f w.host })
  | .reset => (.nothing, { w with engine := w.engine.reset })

end Act

def performAll (app : App) (w : World) (acts : List Act) : World :=
  acts.foldl (fun w act => (act.perform app w).2) w

/-- What comes of each act, and all that can be seen after it. -/
def experience (app : App) : World → List Act → List (Act.Outcome × World)
  | _, [] => []
  | w, act :: rest =>
    let seen := act.perform app w
    seen :: experience app seen.2 rest

namespace Store

theorem sameMode_toOption {s : Store} {r : Resolved Store}
    (h : ∀ t, r = .ok t → s.SameMode t) : s.SameMode (r.toOption.getD s) := by
  cases r with
  | error e => rfl
  | ok t => exact h t rfl

theorem sameMode_operate (s : Store) (operation : Operation) :
    s.SameMode (s.operate operation).2 := by
  cases operation with
  | put expr value => exact sameMode_toOption fun _ => allows_sameMode.put
  | putShared expr value => exact sameMode_toOption fun _ => allows_sameMode.putShared
  | remove expr => exact sameMode_toOption fun _ => allows_sameMode.remove
  | subscribe expr subscription => exact allows_sameMode.subscribe s expr subscription
  | unsubscribe expr goalName type =>
    simp only [operate, unsubscribe]
    split
    · rfl
    · exact allows_sameMode.setInScope _ _ _ _
  | setInEvent inEvent => rfl
  | takePending => rfl
  | reset => rfl

end Store

section

variable {app : App} {w : World} {id : Nat} {base : Handle} {mode : Bool}

theorem Act.keepsMode_baseAfter (act : Act) (trusted : act.Trusted) (kept : base.KeepsMode) :
    (act.baseAfter base).KeepsMode := by
  cases act with
  | rebase registry => exact trusted
  | _ => exact kept

/-- No act but a rebase changes what the engine is made with. -/
theorem Act.rooted_perform (act : Act) (trusted : act.Trusted) (kept : base.KeepsMode)
    (hw : w.Rooted (id, base, mode)) :
    (act.perform app w).2.Rooted (id, act.baseAfter base, mode) := by
  cases act with
  | run errand =>
    have keeps := errand.keeps_program ((rooted (id, base, mode)).keeps_runDeferred app)
    exact (Invariant.run keeps hw).1
  | abandon errand steps =>
    have keeps := errand.keeps_program ((rooted (id, base, mode)).keeps_runDeferred app)
    exact ((Invariant.run keeps hw).2 _ (Run.reaches_advance steps (errand.program app, w))).2
  | memory operation => exact hw.withStore (w.store.sameMode_operate operation)
  | context f => exact ⟨hw.root, hw.modules⟩
  | rearrange change => exact ⟨hw.root, hw.modules.rearrange trusted _⟩
  | withRegistry registry => exact ⟨hw.root, trusted⟩
  | rebase registry =>
    cases hw.root
    exact ⟨rfl, trusted⟩
  | around f => exact ⟨hw.root, hw.modules⟩
  | reset =>
    cases hw.root
    exact ⟨rfl, kept⟩

def lastBase (base : Handle) (acts : List Act) : Handle := acts.foldl Act.baseAfter base

theorem lastBase_eq {acts : List Act} (h : ∀ act ∈ acts, act.rebases = false) :
    lastBase base acts = base := by
  induction acts with
  | nil => rfl
  | cons act rest ih =>
    have same : act.baseAfter base = base := by
      cases act with
      | rebase registry => exact nomatch h _ List.mem_cons_self
      | _ => rfl
    calc lastBase base (act :: rest)
      _ = lastBase (act.baseAfter base) rest := rfl
      _ = lastBase base rest := by rw [same]
      _ = base := ih fun a ha => h a (List.mem_cons_of_mem _ ha)

/-- Whatever a tenant does, the engine is made with the same but for its registry. -/
theorem rooted_performAll {acts : List Act} (trusted : ∀ act ∈ acts, act.Trusted)
    (kept : base.KeepsMode) (hw : w.Rooted (id, base, mode)) :
    (performAll app w acts).Rooted (id, lastBase base acts, mode) := by
  induction acts generalizing w base with
  | nil => exact hw
  | cons act rest ih =>
    have first : act.Trusted := trusted act List.mem_cons_self
    have later : ∀ a ∈ rest, a.Trusted := fun a ha => trusted a (List.mem_cons_of_mem _ ha)
    exact ih later (act.keepsMode_baseAfter first kept) (act.rooted_perform first kept hw)

end

/-- A reset leaves nothing of an engine but what it was made with. -/
theorem Engine.reset_eq (e : Engine) : e.reset = .start e.root.1 e.root.2.1 e.root.2.2 := rfl

/-- Who holds a permit gets the engine that has come back last, made ready. -/
theorem Pool.obtain_giveBack {ε : Type} [Reusable ε] (p : Pool ε) (e : ε) (now : Nat)
    (fresh : Nat → ε) :
    (p.giveBack e now).obtain fresh =
      some (Reusable.ready e, { p with permits := p.permits.release }) := by
  simp [giveBack, park, obtain, popIdle]

namespace AppPool

variable {a : AppPool} {id : Nat} {host : Host} {acts : List Act}

def takeBack (a : AppPool) (w : World) (now : Nat) : AppPool :=
  { a.modifyPool (·.giveBack w.engine now) with shared := w.host.shared }

/-- Where the next tenant of an engine that comes back begins. -/
def nextTenancy (a : AppPool) (w : World) (now : Nat) (host : Host) : Option World :=
  let after := a.takeBack w now
  (after.desk.pool.obtain a.freshEngine).map fun found => after.world found.1 host

def left (a : AppPool) (id : Nat) (host : Host) (acts : List Act) : World :=
  performAll a.app (a.world (a.freshEngine id) host) acts

/-- What comes back is made with what it was made with. -/
theorem rooted_left (kept : a.base.KeepsMode) (trusted : ∀ act ∈ acts, act.Trusted) :
    (a.left id host acts).Rooted (id, lastBase a.base acts, a.app.config.buildMode) :=
  rooted_performAll trusted kept ⟨rfl, kept⟩

/-- The next tenant begins with a new engine. -/
theorem nextTenancy_left (kept : a.base.KeepsMode) (trusted : ∀ act ∈ acts, act.Trusted)
    (now : Nat) (next : Host) :
    a.nextTenancy (a.left id host acts) now next = some {
      engine := .start id (lastBase a.base acts) a.app.config.buildMode
      host := { next with shared := (a.left id host acts).host.shared } } := by
  let w := a.left id host acts
  have rooted : w.Rooted (id, lastBase a.base acts, a.app.config.buildMode) :=
    rooted_left kept trusted
  have ready : Reusable.ready w.engine =
      Engine.start id (lastBase a.base acts) a.app.config.buildMode := by
    change w.engine.reset = _
    rw [Engine.reset_eq, rooted.root]
  simp only [nextTenancy, takeBack, modifyPool, Pool.obtain_giveBack, Option.map_some]
  rw [ready]
  rfl

/-- Nothing passes from one tenant to the next but through what all engines of the app share: the
next tenant sees what is seen on a new engine of the same app, made with the registry that a reset
goes back to, which is the app's own unless a tenant has rebased the engine. Hence two tenants who
leave the same there cannot be told apart. Modules are asked to leave the mode of the memory alone,
those of the app as well as those that tenants bring in. -/
theorem tenants_leave_no_trace (a : AppPool) (id : Nat) (host : Host) (acts : List Act)
    (kept : a.base.KeepsMode) (trusted : ∀ act ∈ acts, act.Trusted) (now : Nat) (next : Host) :
    let w := a.left id host acts
    let fresh : AppPool := { a with base := lastBase a.base acts, shared := w.host.shared }
    ((∀ act ∈ acts, act.rebases = false) → fresh.base = a.base) ∧
    (∀ later, (a.nextTenancy w now next).map (experience a.app · later) =
      some (experience a.app (fresh.world (fresh.freshEngine id) next) later)) ∧
    ∀ (host' : Host) (acts' : List Act) (now' : Nat), (∀ act ∈ acts', act.Trusted) →
      lastBase a.base acts' = lastBase a.base acts →
      (a.left id host' acts').host.shared = w.host.shared →
      ∀ later, (a.nextTenancy (a.left id host' acts') now' next).map (experience a.app · later) =
        (a.nextTenancy w now next).map (experience a.app · later) := by
  refine ⟨lastBase_eq, fun later => ?_, ?_⟩
  · rw [nextTenancy_left kept trusted]
    rfl
  · intro host' acts' now' trusted' same left later
    rw [nextTenancy_left kept trusted, nextTenancy_left kept trusted', same, left]

/-- A goal that is given up leaves its frame behind. -/
theorem tenants_leave_no_trace_after_giving_up :
    let a : AppPool := {
      app := { library := {}, config := {} }
      shared := {}
      base := ⟨.withBuiltins, 0⟩
      desk := .start {}
      openedAt := 0 }
    let start : Invocation := { goal := { name := "Start" } }
    let acts : List Act := [.memory (.setInEvent true), .context (·.grant "/etc/hosts"),
      .rearrange (.disable "file"), .abandon (.goal start) 3]
    let w := a.left 0 {} acts
    a.base.KeepsMode ∧ (∀ act ∈ acts, act.Trusted) ∧
    w.engine.stack.length = 1 ∧ w.engine.memory.inEvent = true ∧
    ∀ later, (a.nextTenancy w 0 {}).map (experience a.app · later) =
        some (experience a.app (a.world (a.freshEngine 0) {}) later) ∧
      (a.nextTenancy (a.left 0 {} []) 0 {}).map (experience a.app · later) =
        (a.nextTenancy w 0 {}).map (experience a.app · later) := by
  intro a start acts w
  have kept : a.base.KeepsMode := Handle.keepsMode_withBuiltins 0
  have trusted : ∀ act ∈ acts, act.Trusted := by
    simp only [acts, List.forall_mem_cons, Act.Trusted, Rearrangement.Trusted, true_and]
    exact List.forall_mem_nil _
  obtain ⟨-, asNew, alike⟩ := tenants_leave_no_trace a 0 {} acts kept trusted 0 {}
  refine ⟨kept, trusted, rfl, rfl, fun later => ⟨?_, ?_⟩⟩
  · exact asNew later
  · exact alike {} [] 0 (List.forall_mem_nil _) rfl rfl later

end AppPool

end GoalScript
