import GoalScript.Proofs.Meanings
import GoalScript.Proofs.Reading

namespace GoalScript

namespace Plan

/-- Reading the expression may look at what is stored under the key. -/
inductive Consults : String → String → Prop where
  | root {expr : String} {plan : Plan} (parsed : parse expr = .ok plan) : Consults expr plan.key
  | inner {expr word key : String} {plan : Plan} (parsed : parse expr = .ok plan)
      (within : word ∈ plan.inner) (h : Consults word key) : Consults expr key

end Plan

namespace Store

variable {expr : String} {meaning : String → Resolved Value} {s t : Store}

/-- Seen from the expression the stores are the same. -/
structure Alike (expr : String) (s t : Store) : Prop where
  mode : t.memory.buildMode = s.memory.buildMode
  now : t.now = s.now
  settings : Plan.Consults expr "settings" → t.shared.settings = s.shared.settings
  vars : ∀ key, Plan.Consults expr key → t.lookup? key = s.lookup? key

theorem Alike.inner {word : String} {plan : Plan} (h : Alike expr s t)
    (parsed : Plan.parse expr = .ok plan) (within : word ∈ plan.inner) : Alike word s t where
  mode := h.mode
  now := h.now
  settings consults := h.settings (.inner parsed within consults)
  vars key consults := h.vars key (.inner parsed within consults)

variable {plan : Plan}

theorem setting_congr (mode : t.memory.buildMode = s.memory.buildMode)
    (settings : t.shared.settings = s.shared.settings) (key : String) :
    t.setting key = s.setting key := by
  rw [setting, setting, mode, settings]

theorem absentRootBy_congr (mode : t.memory.buildMode = s.memory.buildMode) :
    absentRootBy meaning t plan = absentRootBy meaning s plan := by
  rw [absentRootBy, absentRootBy, mode]

theorem navigateBy_congr (mode : t.memory.buildMode = s.memory.buildMode) (base : Variable)
    (segments : List Segment) :
    navigateBy meaning t plan base segments = navigateBy meaning s plan base segments := by
  rw [navigateBy, navigateBy, mode]

/-- With the same meanings for the texts inside, a plan stands for the same in stores that are
alike. -/
theorem resolvePlanBy_congr (parsed : Plan.parse expr = .ok plan) (h : Alike expr s t) :
    resolvePlanBy meaning t plan = resolvePlanBy meaning s plan := by
  have consulted : Plan.Consults expr plan.key := .root parsed
  have found : t.lookup? (Text.lowercase plan.root) = s.lookup? (Text.lowercase plan.root) :=
    h.vars plan.key consulted
  unfold resolvePlanBy
  dsimp only
  rw [h.now, found]
  refine ite_congr rfl (fun _ => navigateBy_congr h.mode _ _) fun _ =>
    ite_congr rfl (fun settings => ?_) fun _ => ?_
  · have settled : plan.key = "settings" := beq_iff_eq.mp settings
    rw [settled] at consulted
    cases settingKey? plan.segments with
    | none => rfl
    | some setting =>
      dsimp only
      rw [setting_congr h.mode (h.settings consulted)]
      simp only [navigateBy_congr h.mode]
  · cases s.lookup? (Text.lowercase plan.root) with
    | none => exact absentRootBy_congr h.mode
    | some x =>
      dsimp only
      rw [navigateBy_congr h.mode, absentRootBy_congr h.mode]

/-- What an expression consults decides what it stands for. -/
theorem get_congr (h : Alike expr s t) : t.get expr = s.get expr := by
  induction hn : expr.length using Nat.strongRecOn generalizing expr with
  | _ n ih =>
    rw [get_eq_by, get_eq_by]
    refine Resolved.bind_congr fun plan parsed => ?_
    rw [resolvePlanBy_congr parsed h]
    refine AgreeOn.resolvePlan fun word within => ?_
    have shorter : word.length < n := hn ▸ Plan.length_of_parse parsed within
    rw [getValue, getValue, ih word.length shorter (h.inner parsed within) rfl]

end Store

end GoalScript
