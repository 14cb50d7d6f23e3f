import GoalScript.Goal.Library
import GoalScript.Run.World

namespace GoalScript

/-- A goal to run, the event that it is run for, and the values bound for it. -/
structure Invocation where
  goal : Goal
  origin : Option EventOrigin := none
  locals : Table Value := []
deriving Inhabited

/-- What runs are given and never change. -/
structure App where
  library : Library
  config : EngineConfig
deriving Inhabited

/-- How far the recovery of a step has got: the retries so far and the failure to report. -/
structure Effort where
  retries : Nat := 0
  first : Option EngineError := none
deriving Inhabited

/-- What a run names and waits for. How tasks are carried out is said where all of them are known.
-/
inductive Task where
  | goal (app : App) (inv : Invocation)
  | fire (app : App)
  | recovery (app : App) (site : Site) (effort : Effort)
deriving Inhabited

/-- What an engine does, one change of the world after the other. -/
inductive Run (α : Type) where
  | done (result : Except EngineError α)
  | change (f : World → World) (next : World → Run α)
  | await (task : Task) (next : Except EngineError Control → Run α)

abbrev Nested := Invocation → Run Control

namespace Run

variable {α β : Type}

/-- Goes on with the result, also after a failure. -/
def andThen (next : Except EngineError α → Run β) : Run α → Run β
  | done result => next result
  | change f rest => change f fun w => (rest w).andThen next
  | await task rest => await task fun r => (rest r).andThen next

instance : Monad Run where
  pure a := done (.ok a)
  bind p f := p.andThen fun
    | .ok a => f a
    | .error e => done (.error e)

instance : MonadExceptOf EngineError Run where
  throw e := done (.error e)
  tryCatch p handler := p.andThen fun
    | .ok a => done (.ok a)
    | .error e => handler e

instance : MonadStateOf World Run where
  get := change id fun w => done (.ok w)
  set w := change (fun _ => w) fun _ => done (.ok ⟨⟩)
  modifyGet f := change id fun w => change (fun _ => (f w).2) fun _ => done (.ok (f w).1)

instance : Inhabited (Run α) := ⟨done (.error default)⟩

/-- Changes the state once the body is over, however it ended. -/
def afterwards (body : Run α) (restore : World → World) : Run α :=
  body.andThen fun result => change restore fun _ => done result

def outcome (body : Run α) : Run (Except EngineError α) := body.andThen fun result => pure result

def update (f : World → World) : Run Unit := change f fun _ => pure ()

def note (entry : Entry) : Run Unit := update (·.record entry)

def wait (ms : Nat) : Run Unit :=
  let ms := lasting ms
  update fun w =>
    { w with host := { w.host with elapsed := w.host.elapsed + ms } }.record (.waited ms)

def modifyContext (f : Context → Context) : Run Unit :=
  update fun w => { w with engine := { w.engine with context := f w.engine.context } }

def modifyStack (f : CallStack → CallStack) : Run Unit :=
  update fun w => { w with engine := { w.engine with stack := f w.engine.stack } }

def ofMemory (r : Resolved α) : Run α :=
  match r with
  | .ok a => pure a
  | .error e => throw (.memory e)

def put (name : String) (value : Value) : Run Unit := do
  let w ← get
  let s ← ofMemory (w.store.put name value)
  set (w.withStore s)

def setSetting (owner key : String) (value : Json) : Run Unit :=
  update fun w =>
    let shared := w.host.shared
    { w with host := { w.host with
      shared := { shared with settings := shared.settings.set owner key value } } }

def ask (request : Request) : Run Reply := do
  note (.prompted request)
  let w ← get
  match w.host.replies with
  | [] =>
    set { w with host := { w.host with refusals := fun i => w.host.refusals (i + 1) } }
    return match w.host.refusals 0 with
      | none => .decline
      | some text => .failure text
  | reply :: rest =>
    set { w with host := { w.host with replies := rest } }
    return reply

end Run

end GoalScript
