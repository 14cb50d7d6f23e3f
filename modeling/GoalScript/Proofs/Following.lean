import Mathlib.Order.Defs.Unbundled
import GoalScript.Proofs.Contract
import GoalScript.Proofs.Silence

namespace GoalScript

structure Frame.SameRun (f g : Frame) : Prop where
  goal : g.goal = f.goal
  origin : g.origin = f.origin
  locals : g.locals = f.locals

instance : IsPreorder Frame Frame.SameRun where
  refl _ := ⟨rfl, rfl, rfl⟩
  trans _ _ _ h k :=
    ⟨k.goal.trans h.goal, k.origin.trans h.origin, k.locals.trans h.locals⟩

inductive CallStack.Like (top : Frame → Frame → Prop) : CallStack → CallStack → Prop where
  | nil : Like top [] []
  | cons {f g : Frame} (below : CallStack) (h : top f g) : Like top (f :: below) (g :: below)

namespace CallStack.Like

variable {top : Frame → Frame → Prop} {s t u : CallStack}

theorem refl [IsPreorder Frame top] (s : CallStack) : Like top s s := by
  cases s with
  | nil => exact .nil
  | cons f below => exact .cons below (Std.Refl.refl f)

theorem trans [IsPreorder Frame top] (h : Like top s t) (k : Like top t u) : Like top s u := by
  cases h with
  | nil => exact k
  | cons below hf =>
    cases k with
    | cons _ hg => exact .cons below (IsTrans.trans _ _ _ hf hg)

theorem length_eq (h : Like top s t) : t.length = s.length := by cases h <;> rfl

theorem tail_eq (h : Like top s t) : t.tail = s.tail := by cases h <;> rfl

theorem eq (h : Like Eq s t) : t = s := by
  cases h with
  | nil => rfl
  | cons below hf => rw [hf]

theorem modifyTop {f : Frame → Frame} (hf : ∀ frame, top frame (f frame)) :
    Like top s (s.modifyTop f) := by
  cases s with
  | nil => exact .nil
  | cons frame below => exact .cons below (hf frame)

end CallStack.Like

def World.flags (w : World) : Bool × Bool × Option LogLevel :=
  (w.engine.context.inEvent, w.engine.memory.inEvent, w.engine.context.logLevel)

def World.take (w : World) : World := w.withStore w.store.takePending.2

/-- `v` comes after `w` in the same goal. What modules may spoil is said of discreet modules only:
the flags, and that nothing waits on the queue while an event goal runs. -/
structure World.Follows (top : Frame → Frame → Prop) (w v : World) : Prop where
  stack : CallStack.Like top w.engine.stack v.engine.stack
  registry : v.engine.registry = w.engine.registry
  replies : v.host.replies.length ≤ w.host.replies.length
  flags : w.engine.registry.Discreet → v.flags = w.flags
  pending : w.engine.registry.Discreet → w.engine.memory.inEvent = true →
    w.engine.memory.pending = [] → v.engine.memory.pending = []

namespace World.Follows

variable {top : Frame → Frame → Prop} {u v w : World}

/-- Among discreet modules the flag of the memory is as it was. -/
theorem inEvent (h : w.Follows top v) (hd : w.engine.registry.Discreet) :
    v.engine.memory.inEvent = w.engine.memory.inEvent :=
  congrArg (fun flags => flags.2.1) (h.flags hd)

theorem trans [IsPreorder Frame top] (h : w.Follows top v) (k : v.Follows top u) :
    w.Follows top u where
  stack := h.stack.trans k.stack
  registry := k.registry.trans h.registry
  replies := Nat.le_trans k.replies h.replies
  flags hd := (k.flags (h.registry ▸ hd)).trans (h.flags hd)
  pending hd hi hp :=
    k.pending (h.registry ▸ hd) ((h.inEvent hd).trans hi) (h.pending hd hi hp)

/-- The frame's progress may be forgotten. -/
theorem of_eq [IsPreorder Frame top] (h : w.Follows Eq v) : w.Follows top v :=
  { h with stack := h.stack.eq ▸ .refl _ }

/-- Worlds that agree on everything a run leaves alone. -/
theorem of_same [IsPreorder Frame top] (hs : v.engine.stack = w.engine.stack)
    (hr : v.engine.registry = w.engine.registry) (ha : v.host.replies = w.host.replies)
    (hf : v.flags = w.flags)
    (hp : w.engine.memory.inEvent = true → w.engine.memory.pending = [] →
      v.engine.memory.pending = []) : w.Follows top v where
  stack := hs ▸ .refl _
  registry := hr
  replies := ha ▸ Nat.le_refl _
  flags _ := hf
  pending _ := hp

theorem refl [IsPreorder Frame top] (w : World) : w.Follows top w :=
  of_same rfl rfl rfl rfl fun _ h => h

/-- What was queued before does not matter where the queue is taken. -/
theorem take (h : w.Follows top v) : w.take.Follows top v.take where
  stack := h.stack
  registry := h.registry
  replies := h.replies
  flags := h.flags
  pending _ _ _ := rfl

theorem of_take (h : w.take.Follows top v) : w.Follows top v where
  stack := h.stack
  registry := h.registry
  replies := h.replies
  flags := h.flags
  pending hd hi _ := h.pending hd hi rfl

end World.Follows

/-- What a task may change in the frame of whoever waits for it: a recovery works on that frame,
goals and callbacks have frames of their own. -/
def Task.top : Task → Frame → Frame → Prop
  | .recovery .. => Frame.SameRun
  | .goal .. => Eq
  | .fire _ => Eq

/-- The world that a task's end follows: callbacks take all that is queued. -/
def Task.start : Task → World → World
  | .fire _, w => w.take
  | .goal .., w => w
  | .recovery .., w => w

def Task.app : Task → App
  | .goal app _ => app
  | .fire app => app
  | .recovery app .. => app

def Invocation.OnTheWay (inv : Invocation) : Prop :=
  ∀ o, inv.origin = some o → o.scope ≠ .goal ∧ o.scope ≠ .step

/-- The contract of a run inside a goal: the stack stays as deep as it is, and every task leaves
what it finds. Further conditions on when a task is begun come with `ready`. -/
def inside (app : App) (depth : Nat) (registry : Handle) (ready : Task → World → Prop) :
    Contract where
  always v := v.engine.stack.length ≤ depth
  owes t v := t.app = app ∧ v.engine.stack.length = depth ∧ v.engine.registry = registry ∧
    ready t v
  grants t v e := (t.start v).Follows t.top e.2

/-- The contract stays the same in whatever follows. -/
theorem World.Follows.inside_eq {app : App} {ready : Task → World → Prop}
    {top : Frame → Frame → Prop} {w v : World} (h : w.Follows top v) :
    inside app v.engine.stack.length v.engine.registry ready =
      inside app w.engine.stack.length w.engine.registry ready := by
  rw [h.stack.length_eq, h.registry]

namespace Run

variable {α β : Type} {app : App} {ready : Task → World → Prop} {top : Frame → Frame → Prop}
  {w : World}

def Keeps (app : App) (ready : Task → World → Prop) (top : Frame → Frame → Prop) (p : Run α)
    (w : World) : Prop :=
  p.Meets (inside app w.engine.stack.length w.engine.registry ready) (fun e => w.Follows top e.2) w

theorem Keeps.outcome {p : Run α} (h : Keeps app ready top p w) :
    Keeps app ready top (outcome p) w := meets_outcome.mpr h

theorem keeps_get_bind {f : World → Run β} (h : Keeps app ready top (f w) w) :
    Keeps app ready top (get >>= f) w := meets_get_bind.mpr ⟨Nat.le_refl _, h⟩

theorem keeps_update {f : World → World} (h : w.Follows top (f w)) :
    Keeps app ready top (update f) w := ⟨Nat.le_of_eq h.stack.length_eq, h⟩

theorem keeps_set {v : World} (h : w.Follows top v) :
    Keeps app ready top (set v : Run PUnit) w := ⟨Nat.le_of_eq h.stack.length_eq, h⟩

/-- The rest is read under the contract of the world in which it starts. -/
theorem Meets.bind_inside {p : Run α} {f : α → Run β} {mid : Ending α → Prop}
    {post : Ending β → Prop}
    (hp : p.Meets (inside app w.engine.stack.length w.engine.registry ready) mid w)
    (hm : ∀ e, mid e → w.Follows top e.2)
    (he : ∀ x v, mid (.error x, v) → post (.error x, v))
    (hf : ∀ a v, mid (.ok a, v) →
      (f a).Meets (inside app v.engine.stack.length v.engine.registry ready) post v) :
    (p >>= f).Meets (inside app w.engine.stack.length w.engine.registry ready) post w := by
  refine meets_bind.mpr (hp.mono ?_)
  rintro ⟨result, v⟩ hv
  cases result with
  | error x => exact he x v hv
  | ok a => exact (hm _ hv).inside_eq ▸ hf a v hv

theorem Keeps.bind_meets {p : Run α} {f : α → Run β} {post : Ending β → Prop}
    (hp : Keeps app ready top p w) (he : ∀ x v, w.Follows top v → post (.error x, v))
    (hf : ∀ a v, w.Follows top v →
      (f a).Meets (inside app v.engine.stack.length v.engine.registry ready) post v) :
    (p >>= f).Meets (inside app w.engine.stack.length w.engine.registry ready) post w :=
  hp.bind_inside (fun _ hv => hv) he hf

section

variable [IsPreorder Frame top]

theorem keeps_pure {a : α} : Keeps app ready top (pure a) w := .refl w

theorem keeps_throw {x : EngineError} : Keeps app ready top (throw x : Run α) w := .refl w

/-- What goes on from a part that keeps its world starts in a world that follows it. -/
theorem Keeps.bind {p : Run α} {f : α → Run β} (hp : Keeps app ready top p w)
    (hf : ∀ a v, w.Follows top v → Keeps app ready top (f a) v) :
    Keeps app ready top (p >>= f) w :=
  hp.bind_meets (fun _ _ hv => hv) fun a v hv => (hf a v hv).mono fun _ he => hv.trans he

theorem meets_forM {f : α → Run PUnit} (inv : World → Prop)
    (h : ∀ a v, w.Follows top v → inv v →
      (f a).Meets (inside app v.engine.stack.length v.engine.registry ready)
        (fun e => v.Follows top e.2 ∧ inv e.2) v)
    (as : List α) (hw : inv w) :
    (as.forM f).Meets (inside app w.engine.stack.length w.engine.registry ready)
      (fun e => w.Follows top e.2 ∧ inv e.2) w := by
  induction as generalizing w with
  | nil => exact ⟨.refl w, hw⟩
  | cons a as ih =>
    refine (h a w (.refl w) hw).bind_inside (fun _ he => he.1) (fun _ _ he => he) ?_
    rintro _ v ⟨hv, hi⟩
    refine (ih (fun b u hu => h b u (hv.trans hu)) hi).mono ?_
    exact fun e he => ⟨hv.trans he.1, he.2⟩

theorem keeps_forM {f : α → Run PUnit} (h : ∀ a v, w.Follows top v → Keeps app ready top (f a) v)
    (as : List α) : Keeps app ready top (as.forM f) w := by
  refine (meets_forM (fun _ => True) (fun a v hv _ => ?_) as trivial).mono fun _ he => he.1
  exact (h a v hv).mono fun _ he => ⟨he, trivial⟩

theorem keeps_mapM {f : α → Run β} (h : ∀ a v, Keeps app ready top (f a) v) (as : List α) :
    Keeps app ready top (as.mapM f) w := by
  have loop (as : List α) (done : List β) (v : World) :
      Keeps app ready top (List.mapM.loop f as done) v := by
    induction as generalizing done v with
    | nil => exact keeps_pure
    | cons a as ih => exact (h a v).bind fun b u _ => ih (b :: done) u
  exact loop as [] w

end

theorem Keeps.of_eq [IsPreorder Frame top] {p : Run α} (h : Keeps app ready Eq p w) :
    Keeps app ready top p w := h.mono fun _ he => he.of_eq

/-- A task that may be begun ends in a world that follows the one from which it starts. -/
theorem meets_await {t : Task} (ht : t.app = app) (hr : ready t w) :
    (await t done).Meets (inside app w.engine.stack.length w.engine.registry ready)
      (fun e => (t.start w).Follows t.top e.2) w := ⟨⟨ht, rfl, rfl, hr⟩, fun _ he => he⟩

/-- Started in `w` the run keeps its contract and goes on once what is queued has been called
back. -/
def Clears (app : App) (ready : Task → World → Prop) (top : Frame → Frame → Prop) (p : Run α)
    (w : World) : Prop :=
  p.Meets (inside app w.engine.stack.length w.engine.registry ready)
    (fun e => w.take.Follows top e.2) w

theorem Clears.keeps {p : Run α} (h : Clears app ready top p w) : Keeps app ready top p w :=
  h.mono fun _ he => he.of_take

theorem Clears.of_eq [IsPreorder Frame top] {p : Run α} (h : Clears app ready Eq p w) :
    Clears app ready top p w := h.mono fun _ he => he.of_eq

theorem Clears.outcome {p : Run α} (h : Clears app ready top p w) :
    Clears app ready top (outcome p) w := meets_outcome.mpr h

/-- Once the queue has been called back, it is enough to keep what is found. -/
theorem Clears.bind [IsPreorder Frame top] {p : Run α} {f : α → Run β}
    (hp : Clears app ready top p w)
    (hf : ∀ a v, w.Follows top v → Keeps app ready top (f a) v) :
    Clears app ready top (p >>= f) w :=
  Meets.bind_inside hp (fun _ hv => hv.of_take) (fun _ _ hv => hv) fun a v hv =>
    (hf a v hv.of_take).mono fun _ he => hv.trans he

end Run

end GoalScript
