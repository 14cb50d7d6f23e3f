import GoalScript.Memory.Text
import GoalScript.Memory.Write
import GoalScript.Proofs.Shrinking

namespace GoalScript

namespace Store

variable {expr : String} {meaning meaning' : String → Resolved Value} {s : Store} {plan : Plan}

/-- Both give these texts the same meaning. -/
def AgreeOn (meaning meaning' : String → Resolved Value) (words : List String) : Prop :=
  ∀ word ∈ words, meaning word = meaning' word

theorem subset_of_settingKey? {segments rest : List Segment} {name : String}
    (h : settingKey? segments = some (name, rest)) : rest ⊆ segments := by
  unfold settingKey? at h
  split at h
  · cases h
    exact List.subset_cons_self _ _
  · cases h
    exact List.subset_cons_self _ _
  · cases h

namespace AgreeOn

theorem mono {words words' : List String} (h : AgreeOn meaning meaning' words)
    (fewer : words' ⊆ words) : AgreeOn meaning meaning' words' :=
  fun word member => h word (fewer member)

theorem arguments {args : List Argument}
    (h : AgreeOn meaning meaning' (args.filterMap Argument.inner?)) :
    argumentsBy meaning args = argumentsBy meaning' args := by
  induction args with
  | nil => rfl
  | cons arg rest ih =>
    cases arg with
    | literal v => rw [argumentsBy, argumentsBy, ih h]
    | reference word =>
      have later : AgreeOn meaning meaning' (rest.filterMap Argument.inner?) :=
        h.mono (by simp [Argument.inner?])
      rw [argumentsBy, argumentsBy, h word (by simp [Argument.inner?]), ih later]

theorem index {shown : String} {i : Index}
    (h : AgreeOn meaning meaning' (Segment.index i).inner) (v : Value) :
    indexBy meaning shown v i = indexBy meaning' shown v i := by
  cases i with
  | lookup word => rw [indexBy, indexBy, h word List.mem_cons_self]
  | _ => rfl

theorem segment {shown : String} {segment : Segment}
    (h : AgreeOn meaning meaning' segment.inner) (v : Value) :
    segmentBy meaning shown v segment = segmentBy meaning' shown v segment := by
  cases segment with
  | index i => exact h.index v
  | method name args => rw [segmentBy, segmentBy, arguments h]
  | _ => rfl

theorem segments {shown : String} {segments : List Segment}
    (h : AgreeOn meaning meaning' (segments.flatMap Segment.inner)) (v : Value) :
    segmentsBy meaning shown v segments = segmentsBy meaning' shown v segments := by
  induction segments generalizing v with
  | nil => rfl
  | cons segment rest ih =>
    have first : AgreeOn meaning meaning' segment.inner := h.mono (by simp)
    have later : AgreeOn meaning meaning' (rest.flatMap Segment.inner) := h.mono (by simp)
    rw [segmentsBy, segmentsBy, first.segment]
    simp only [ih later]

theorem arithmetic {a : Arithmetic} (h : AgreeOn meaning meaning' plan.inner)
    (calculated : plan.arithmetic = some a) (v : Value) :
    arithmeticBy meaning v a = arithmeticBy meaning' v a := by
  unfold arithmeticBy
  cases read : a.operand with
  | number x => rfl
  | duration ms => rfl
  | reference word =>
    have same := h word (by simp [Plan.inner, calculated, Arithmetic.inner?, read])
    simp only [same]

theorem absentRoot (h : AgreeOn meaning meaning' plan.inner) :
    absentRootBy meaning s plan = absentRootBy meaning' s plan := by
  unfold absentRootBy
  cases calculated : plan.arithmetic with
  | none => cases plan.segments <;> rfl
  | some a =>
    cases plan.segments with
    | nil => simp only [h.arithmetic calculated]
    | cons segment rest => rfl

theorem navigate (h : AgreeOn meaning meaning' plan.inner) {segments : List Segment}
    (part : segments ⊆ plan.segments) (base : Variable) :
    navigateBy meaning s plan base segments = navigateBy meaning' s plan base segments := by
  have way : AgreeOn meaning meaning' (segments.flatMap Segment.inner) := by
    refine h.mono fun word member => ?_
    obtain ⟨segment, there, within⟩ := List.mem_flatMap.mp member
    exact List.mem_append_left _ (List.mem_flatMap.mpr ⟨segment, part there, within⟩)
  unfold navigateBy
  rw [way.segments]
  cases calculated : plan.arithmetic with
  | none => rfl
  | some a =>
    cases segmentsBy meaning' plan.expr base.value segments with
    | error e => rfl
    | ok v => simp only [h.arithmetic calculated]

/-- What the texts inside a plan mean decides what it stands for. -/
theorem resolvePlan (h : AgreeOn meaning meaning' plan.inner) :
    resolvePlanBy meaning s plan = resolvePlanBy meaning' s plan := by
  unfold resolvePlanBy
  refine ite_congr rfl (fun _ => h.navigate (List.Subset.refl _) _) fun _ =>
    ite_congr rfl (fun _ => ?_) fun _ => ?_
  · cases key : settingKey? plan.segments with
    | none => rfl
    | some setting => simp only [h.navigate (subset_of_settingKey? key)]
  · cases s.lookup? (Text.lowercase plan.root) with
    | none => exact h.absentRoot
    | some x =>
      dsimp only
      rw [h.navigate (List.Subset.refl _), h.absentRoot]

/-- It also decides where the plan leads a writer. -/
theorem places (h : AgreeOn meaning meaning' plan.inner) :
    placesBy meaning plan = placesBy meaning' plan := by
  refine Resolved.mapM_congr fun segment there => ?_
  cases segment with
  | index i =>
    cases i with
    | lookup word => rw [placeOfBy, placeOfBy, h word (Plan.Looks.mem_inner there)]
    | _ => rfl
  | _ => rfl

end AgreeOn

/-- As the texts inside an expression are shorter than it, the guard of the resolver never shows. -/
theorem get_eq_by (s : Store) (expr : String) :
    s.get expr = (do
      let plan ← Plan.parse expr
      s.resolvePlanBy s.getValue plan) := by
  rw [get]
  refine Resolved.bind_congr fun plan parsed => AgreeOn.resolvePlan fun word within => ?_
  rw [dif_pos (Plan.length_of_parse parsed within), getValue]

end Store

end GoalScript
