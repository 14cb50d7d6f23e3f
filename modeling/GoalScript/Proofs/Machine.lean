import Mathlib.Logic.Relation
import GoalScript.Proofs.Contract

namespace GoalScript

/-- The programs of tasks keep the contract under which they are begun. -/
def Contract.Sound (c : Contract) : Prop :=
  ∀ t w, c.owes t w → t.program.Meets c (c.grants t w) w

namespace Run

variable {α β : Type} {c : Contract} {p : Run α} {w : World} {e : Ending α}

abbrev Point (α : Type) := Run α × World

/-- A step makes one change, or begins the task that is waited for: its program goes in front of
what is done with its result. Neither room nor turns are counted here, and callbacks that are begun
during callbacks are made like all others. -/
inductive Next : Point α → Point α → Prop where
  | change (f : World → World) (next : World → Run α) (w : World) :
    Next (change f next, w) (next (f w), f w)
  | await (task : Task) (next : Except EngineError Control → Run α) (w : World) :
    Next (await task next, w) (task.program.andThen next, w)

abbrev Reaches : Point α → Point α → Prop := Relation.ReflTransGen Next

/-- There is no endless run from here, and so none that calls modules endlessly often. -/
def Finite (s : Point α) : Prop := Acc (fun t s => Next s t) s

theorem Finite.of_reaches {s t : Point α} (h : Finite s) (hr : Reaches s t) : Finite t := by
  induction hr with
  | refl => exact h
  | tail _ step ih => exact ih.inv step

/-- A run that gets from each of these points to another one goes on for ever. -/
theorem not_finite_of_progress {P : Point α → Prop}
    (progress : ∀ s, P s → ∃ t, Relation.TransGen Next s t ∧ P t) {s : Point α} (hs : P s) :
    ¬ Finite s := by
  intro finite
  have descends : Acc (Relation.TransGen fun t s => Next s t) s := finite.transGen
  induction descends with
  | intro s _ ih =>
    obtain ⟨t, further, ht⟩ := progress s hs
    exact ih t (Relation.transGen_swap.mpr further) ht (finite.of_reaches further.to_reflTransGen)

/-- There is one way to go on. -/
theorem Next.unique {s t u : Point α} (h : Next s t) (k : Next s u) : t = u := by
  cases h <;> cases k <;> rfl

/-- A run that returns is over after finitely many steps, since there is only one way to go on. -/
theorem finite_of_returns {s : Point α} {result : Except EngineError α} {v : World}
    (hr : Reaches s (done result, v)) : Finite s := by
  induction hr using Relation.ReflTransGen.head_induction_on with
  | refl => exact .intro _ fun t step => by cases step
  | head step _ ih => exact .intro _ fun t step' => step'.unique step ▸ ih

def advance : Nat → Point α → Point α
  | 0, s => s
  | _ + 1, (done result, w) => (done result, w)
  | n + 1, (change f next, w) => advance n (next (f w), f w)
  | n + 1, (await task next, w) => advance n (task.program.andThen next, w)

theorem reaches_advance (n : Nat) (s : Point α) : Reaches s (advance n s) := by
  induction n generalizing s with
  | zero => exact .refl
  | succ n ih =>
    obtain ⟨p, w⟩ := s
    cases p with
    | done result => exact .refl
    | change f next => exact .head (.change f next w) (ih _)
    | await task next => exact .head (.await task next w) (ih _)

theorem andThen_done (p : Run α) : p.andThen done = p := by
  induction p with
  | done result => rfl
  | change f next ih => simp only [andThen, ih]
  | await task next ih => simp only [andThen, ih]

theorem andThen_assoc {γ : Type} (p : Run α) (f : Except EngineError α → Run β)
    (g : Except EngineError β → Run γ) :
    (p.andThen f).andThen g = p.andThen fun r => (f r).andThen g := by
  induction p with
  | done result => rfl
  | change c next ih => simp only [andThen, ih]
  | await task next ih => simp only [andThen, ih]

theorem Next.andThen {s t : Point α} (h : Next s t) (next : Except EngineError α → Run β) :
    Next (s.1.andThen next, s.2) (t.1.andThen next, t.2) := by
  cases h with
  | change f rest w => exact .change f _ w
  | await task rest w =>
    have step := Next.await task (fun r => (rest r).andThen next) w
    rwa [← andThen_assoc] at step

/-- What follows a run does not change how it goes on. -/
theorem Reaches.andThen {s t : Point α} (h : Reaches s t) (next : Except EngineError α → Run β) :
    Reaches (s.1.andThen next, s.2) (t.1.andThen next, t.2) :=
  Relation.ReflTransGen.lift (fun s : Point α => (s.1.andThen next, s.2))
    (fun _ _ step => step.andThen next) _ _ h

/-- Under a sound contract the contract is kept in everything a run reaches. -/
theorem Reaches.meets {post : Ending α → Prop} {s t : Point α} (hr : Reaches s t)
    (hc : c.Sound) (hs : s.1.Meets c post s.2) (ha : c.always s.2) :
    t.1.Meets c post t.2 ∧ c.always t.2 := by
  induction hr with
  | refl => exact ⟨hs, ha⟩
  | tail _ step ih =>
    obtain ⟨hm, ha⟩ := ih
    cases step with
    | change f next w => exact ⟨hm.2, hm.1⟩
    | await task next w =>
      exact ⟨meets_andThen.mpr ((hc task w hm.1).mono hm.2), ha⟩

/-- The run, all its tasks included, comes to this. -/
inductive Ends : {α : Type} → Run α → World → Ending α → Prop where
  | done {α : Type} (result : Except EngineError α) (w : World) : Ends (done result) w (result, w)
  | change {α : Type} {f : World → World} {next : World → Run α} {w : World} {e : Ending α}
    (h : Ends (next (f w)) (f w) e) : Ends (change f next) w e
  | await {α : Type} {task : Task} {next : Except EngineError Control → Run α} {w : World}
    {d : Ending Control} {e : Ending α} (ht : Ends task.program w d)
    (h : Ends (next d.1) d.2 e) : Ends (await task next) w e

/-- A run that comes to something gets there whatever follows it. -/
theorem Ends.reaches_andThen (h : Ends p w e) (next : Except EngineError α → Run β) :
    Reaches (p.andThen next, w) (next e.1, e.2) := by
  induction h with
  | done result w => exact .refl
  | change _ ih => exact .head (.change _ _ _) (ih next)
  | await _ _ iht ih => exact .head (.await _ _ _) ((iht _).trans (ih next))

theorem Ends.finite_andThen (h : Ends p w e) {next : Except EngineError α → Run β}
    (hn : Finite (next e.1, e.2)) : Finite (p.andThen next, w) := by
  induction h with
  | done result w => exact hn
  | change _ ih => exact .intro _ fun s hs => by cases hs; exact ih hn
  | await _ _ iht ih => exact .intro _ fun s hs => by cases hs; exact iht (ih hn)

/-- A run that ends comes there step by step. -/
theorem Ends.reaches (h : Ends p w e) : Reaches (p, w) (.done e.1, e.2) := by
  have hr : Reaches (p.andThen .done, w) (.done e.1, e.2) := h.reaches_andThen .done
  rwa [andThen_done] at hr

theorem Ends.finite (h : Ends p w e) : Finite (p, w) := by
  have hf : Finite (p.andThen .done, w) := h.finite_andThen (.intro _ fun s hs => by cases hs)
  rwa [andThen_done] at hf

theorem Ends.andThen {next : Except EngineError α → Run β} {d : Ending β} (h : Ends p w e)
    (hn : Ends (next e.1) e.2 d) : Ends (p.andThen next) w d := by
  induction h with
  | done result w => exact hn
  | change _ ih => exact .change (ih hn)
  | await ht _ _ ih => exact .await ht (ih hn)

theorem Ends.bind_of_ok {f : α → Run β} {a : α} {v : World} {d : Ending β}
    (h : Ends p w (.ok a, v)) (hf : Ends (f a) v d) : Ends (p >>= f) w d := h.andThen hf

theorem Ends.bind_of_error {f : α → Run β} {x : EngineError} {v : World}
    (h : Ends p w (.error x, v)) : Ends (p >>= f) w (.error x, v) := h.andThen (.done _ _)

/-- Looking at the world leads nowhere else. -/
theorem ends_get_bind {f : World → Run β} {d : Ending β} (h : Ends (f w) w d) :
    Ends ((get : Run World) >>= f) w d := .change h

theorem ends_put {name : String} {value : Value} {t : Store} (h : w.store.put name value = .ok t) :
    Ends (put name value) w (.ok (), w.withStore t) := by
  have written : Ends (do let s ← ofMemory (w.store.put name value); set (w.withStore s)) w
      (.ok (), w.withStore t) := by
    rw [h]
    exact .change (.done _ _)
  exact ends_get_bind written

theorem ends_put_of_error {name : String} {value : Value} {x : MemoryError}
    (h : w.store.put name value = .error x) :
    Ends (put name value) w (.error (.memory x), w) := by
  have failed : Ends (do let s ← ofMemory (w.store.put name value); set (w.withStore s)) w
      (.error (.memory x), w) := by
    rw [h]
    exact .done _ _
  exact ends_get_bind failed

theorem Ends.outcome (h : Ends p w e) : Ends (outcome p) w (.ok e.1, e.2) :=
  h.andThen (.done _ _)

/-- Under a sound contract a run comes to what it is meant to. -/
theorem Ends.meets {post : Ending α → Prop} (h : Ends p w e) (hc : c.Sound)
    (hp : p.Meets c post w) : post e := by
  induction h with
  | done result w => exact hp
  | change _ ih => exact ih hp.2
  | await _ _ iht ih => exact ih (hp.2 _ (iht (hc _ _ hp.1)))

/-- If the programs of tasks come to what is granted, the run comes to what it is said to. -/
theorem Meets.ends {post : Ending α → Prop} {tasks : Task → World → Ending Control}
    (h : p.Meets c post w)
    (ht : ∀ t v, c.owes t v → c.grants t v (tasks t v) ∧ Ends t.program v (tasks t v)) :
    Ends p w (exec tasks p w) := by
  induction p generalizing w with
  | done result => exact .done result w
  | change f next ih => exact .change (ih (f w) h.2)
  | await task next ih =>
    obtain ⟨hg, he⟩ := ht task w h.1
    exact .await he (ih _ (h.2 _ hg))

end Run

open Run

/-- A task may be given up before it is begun, for want of turns or room. -/
structure Contract.Lenient (c : Contract) : Prop where
  idle (t : Task) (w : World) : c.owes t w → c.grants t w (.ok .proceed, w)
  full (app : App) (inv : Invocation) (w : World) : c.owes (.goal app inv) w →
    c.grants (.goal app inv) w
      (.error (.stackOverflow app.config.maxCallDepth w.engine.stack.trace), w)

namespace Contract

variable {c : Contract}

section

variable {goal : Runner} (hc : c.Sound) (hl : c.Lenient)
  (hg : ∀ app inv w, c.owes (.goal app inv) w → c.grants (.goal app inv) w (goal app inv w))

include hl hg

theorem Lenient.quietly (t : Task) (w : World) (h : c.owes t w) :
    c.grants t w (quietly goal t w) := by
  cases t with
  | goal app inv => exact hg app inv w h
  | fire app => exact hl.idle _ w h
  | recovery app site effort => exact hl.idle _ w h

include hc

theorem Sound.carryOut {again : App → Site → Effort → World → Ending Control}
    (ha : ∀ app site effort w, c.owes (.recovery app site effort) w →
      c.grants (.recovery app site effort) w (again app site effort w))
    (t : Task) (w : World) (h : c.owes t w) : c.grants t w (carryOut goal again t w) := by
  cases t with
  | goal app inv => exact hg app inv w h
  | fire app => exact Meets.ending (hc _ w h) (hl.quietly hg)
  | recovery app site effort => exact ha app site effort w h

theorem Sound.recoverWithin (turns : Nat) (app : App) (site : Site) (effort : Effort) (w : World)
    (h : c.owes (.recovery app site effort) w) :
    c.grants (.recovery app site effort) w (recoverWithin goal turns app site effort w) := by
  induction turns generalizing app site effort w with
  | zero => exact hl.idle _ w h
  | succ turns ih => exact Meets.ending (hc _ w h) (hc.carryOut hl hg ih)

theorem Sound.carryOutWith (t : Task) (w : World) (h : c.owes t w) :
    c.grants t w (carryOutWith goal t w) :=
  hc.carryOut hl hg (fun app site effort w => hc.recoverWithin hl hg _ app site effort w) t w h

end

/-- What the programs of tasks grant the tasks grant as they are carried out, by induction on the
room that is left. -/
theorem Sound.goalWithin (hc : c.Sound) (hl : c.Lenient) (room : Nat) (app : App)
    (inv : Invocation) (w : World) (h : c.owes (.goal app inv) w) :
    c.grants (.goal app inv) w (goalWithin room app inv w) := by
  induction room generalizing app inv w with
  | zero => exact hl.full app inv w h
  | succ room ih => exact Meets.ending (hc _ w h) (hc.carryOutWith hl ih)

/-- Carried out, tasks keep a sound contract that lets them be given up. -/
theorem Sound.perform (hc : c.Sound) (hl : c.Lenient) (t : Task) (w : World)
    (h : c.owes t w) : c.grants t w (perform t w) :=
  hc.carryOutWith hl (fun app inv w => hc.goalWithin hl _ app inv w) t w h

end Contract
end GoalScript
