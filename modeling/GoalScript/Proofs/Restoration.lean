import GoalScript.Proofs.Machine
import GoalScript.Proofs.Performing

namespace GoalScript

/-- Nothing is left of the scopes opened on the way from `w` to `v`. -/
structure World.SameScope (w v : World) : Prop where
  stack : v.engine.stack = w.engine.stack
  registry : v.engine.registry = w.engine.registry
  logLevel : v.engine.context.logLevel = w.engine.context.logLevel
  contextInEvent : v.engine.context.inEvent = w.engine.context.inEvent
  memoryInEvent : v.engine.memory.inEvent = w.engine.memory.inEvent

theorem World.Follows.sameScope {w v : World} (h : w.Follows Eq v)
    (hd : w.engine.registry.Discreet) : w.SameScope v where
  stack := h.stack.eq
  registry := h.registry
  logLevel := congrArg (fun flags => flags.2.2) (h.flags hd)
  contextInEvent := congrArg (fun flags => flags.1) (h.flags hd)
  memoryInEvent := h.inEvent hd

def anywhere (app : App) : Contract where
  always _ := True
  owes t _ := t.app = app
  grants t v e := (t.start v).Follows t.top e.2

namespace Run

variable {α : Type} {app : App} {p : Run α} {post : Ending α → Prop} {w : World}

/-- What a run promises inside a goal it promises anywhere. -/
theorem Meets.anywhere {depth : Nat} {registry : Handle} {ready : Task → World → Prop}
    (h : p.Meets (inside app depth registry ready) post w) :
    p.Meets (GoalScript.anywhere app) post w :=
  h.weaken (fun _ _ => trivial) (fun _ _ ht => ht.1) fun _ _ _ _ he => he

/-- Tasks leave what they find in all they do. -/
theorem sound_anywhere (app : App) : (anywhere app).Sound := by
  rintro t w rfl
  cases t with
  | goal app inv =>
    rcases Nat.lt_or_ge w.engine.stack.length app.config.maxCallDepth with hlt | hge
    · exact (meets_goalRun_anyTime inv hlt).anywhere
    · refine meets_get_bind.mpr ⟨trivial, ?_⟩
      simp only [hge, ↓reduceIte]
      exact (.refl w : w.Follows Eq w)
  | fire app => exact Meets.anywhere clears_callBackAll_anyTime
  | recovery app site effort => exact Meets.anywhere keeps_recovery_anyTime

/-- Whatever a run comes to, and wherever it returns step by step, the scopes are as they were. -/
structure Restores (p : Run α) (w : World) : Prop where
  run : w.SameScope (p.run w).2
  returns : ∀ result v, Reaches (p, w) (done result, v) → w.SameScope v

theorem Keeps.restores (h : Keeps app anyTime Eq p w) (hd : w.engine.registry.Discreet) :
    Restores p w where
  run := h.follows.sameScope hd
  returns result v hr := by
    have hv : w.Follows Eq v := (hr.meets (sound_anywhere app) (Meets.anywhere h) trivial).1
    exact hv.sameScope hd

/-- Goals, calls and event goals restore the scopes in every state and whatever comes of them.
Modules are asked to leave the in-event flags and the log level alone. -/
theorem scopes_restored (app : App) (w : World) (hd : w.engine.registry.Discreet) :
    (∀ inv, Restores (runGoal app inv) w) ∧
    (∀ call values, Restores (callGoal app (runGoal app) call values) w) ∧
    (∀ call origin values, Restores (runEventGoal app (runGoal app) call origin values) w) := by
  have hg : ∀ inv v, anyTime (.goal app inv) v := fun _ _ => trivial
  have hf : ∀ v, anyTime (.fire app) v := fun _ => trivial
  refine ⟨fun inv => ?_, fun call values => ?_, fun call origin values => ?_⟩
  · exact (keeps_runGoal trivial).restores hd
  · exact (keeps_callGoal hg hf).restores hd
  · exact (keeps_runEventGoal hg hf).restores hd

/-- The modules that every registry starts with are discreet. -/
theorem scopes_restored_withBuiltins :
    let goal : Goal := {
      name := "Loop"
      comment := some "[trace]"
      injections := [⟨"time", "user"⟩]
      steps := [.new "goal" { function := "call", parameters := [⟨"name", .text "Loop"⟩] }] }
    let app : App := ⟨Library.ofFile { goals := [goal] }, { maxCallDepth := 3 }⟩
    let w : World := ⟨.start 0 ⟨.withBuiltins, 0⟩ false, {}⟩
    w.engine.registry.Discreet ∧ Restores (runGoal app { goal }) w := by
  intro goal app w
  have hd : w.engine.registry.Discreet := Handle.discreet_withBuiltins 0
  exact ⟨hd, (scopes_restored app w hd).1 { goal }⟩

end Run

end GoalScript
