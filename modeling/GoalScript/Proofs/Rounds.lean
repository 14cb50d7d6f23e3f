import GoalScript.Proofs.Lineage
import GoalScript.Proofs.Meanings
import Mathlib.Logic.Function.Iterate

namespace GoalScript

namespace Store

variable {expr text : String} {meaning meaning' : String → Resolved Value} {s : Store} {plan : Plan}

section

variable (same : ∀ inner, inner.length ≤ text.length → meaning inner = s.getValue inner)

include same

/-- A write looks up nothing but texts inside its expression. -/
theorem placesBy_eq (parsed : Plan.parse text = .ok plan) :
    placesBy meaning plan = placesBy s.getValue plan :=
  AgreeOn.places fun inner within =>
    same inner (Nat.le_of_lt (Plan.length_of_parse parsed within))

theorem writeToBy_eq (v : Value) (scope : Scope) :
    s.writeToBy meaning text v scope = s.writeTo text v scope := by
  refine Resolved.bind_congr fun plan parsed => ?_
  have written : s.writeVariableBy meaning plan v.structured scope =
      s.writeVariableBy s.getValue plan v.structured scope := by
    rw [writeVariableBy, writeVariableBy, placesBy_eq same parsed]
  simp only [written]

theorem removeBy_eq : s.removeBy meaning text = s.remove text := by
  refine Resolved.bind_congr fun plan parsed => ?_
  dsimp only
  cases (s.inScope (Text.lowercase plan.root) (s.scopeOf text)).filter Variable.isSet with
  | none => rfl
  | some v => simp only [placesBy_eq same parsed]

theorem interpolateBy_eq (place : Nat) (spans : List Span) :
    interpolateBy meaning text.toList place spans =
      interpolateBy s.getValue text.toList place spans := by
  induction spans generalizing place with
  | nil => rfl
  | cons span rest ih =>
    have shorter : (String.ofList (span.slice text.toList)).length ≤ text.length := by
      simp only [Span.slice, String.length_ofList, List.length_take, List.length_drop,
        String.length_toList]
      omega
    rw [interpolateBy, interpolateBy, same _ shorter, ih]

theorem resolveTextBy_eq : resolveTextBy meaning text = s.resolveText text := by
  have trimmed : (String.ofList (Text.trim text.toList)).length ≤ text.length := by
    rw [String.length_ofList, ← String.length_toList]
    exact Text.length_trim_le _
  unfold resolveText resolveTextBy
  dsimp only
  rcases Span.references text.toList with - | ⟨span, - | ⟨next, rest⟩⟩
  · rfl
  · simp only [interpolateBy_eq same, same _ trimmed]
  · simp only [interpolateBy_eq same]

end

/-- Answers for an expression as the given answers have it for the texts inside. -/
def round (s : Store) (rest : String → Resolved Variable) (expr : String) : Resolved Variable := do
  let plan ← Plan.parse expr
  s.resolvePlanBy (fun inner => (rest inner).map Variable.value) plan

/-- An expression is settled after as many rounds as it has characters and one more. -/
theorem iterate_round (s : Store) (rest : String → Resolved Variable) {n : Nat}
    (deep : expr.length < n) : s.round^[n] rest expr = s.get expr := by
  induction n generalizing expr with
  | zero => exact absurd deep (Nat.not_lt_zero _)
  | succ n ih =>
    rw [Function.iterate_succ_apply', round, get_eq_by]
    refine Resolved.bind_congr fun plan parsed =>
      AgreeOn.resolvePlan fun inner within => ?_
    have shorter := Plan.length_of_parse parsed within
    rw [ih (by omega), getValue]

/-- The texts inside an expression are shorter than what is left of it when it is stripped, and no
others are asked for. So as many rounds as a text has characters, and one more, read it, write where
it leads, remove that and replace its references as is done without a limit: whatever answers the
first of the rounds is never asked, for any variables. -/
theorem nested_references_shrink (text : String) :
    (∀ plan, Plan.parse text = .ok plan →
      plan.expr.toList = Plan.strip text.toList ∧
        (∀ inner ∈ plan.inner, inner.length < plan.expr.length) ∧
        ∀ (s : Store) (meaning meaning' : String → Resolved Value),
          (∀ inner ∈ plan.inner, meaning inner = meaning' inner) →
            s.resolvePlanBy meaning plan = s.resolvePlanBy meaning' plan ∧
              placesBy meaning plan = placesBy meaning' plan) ∧
      ∀ (s : Store) (rest : String → Resolved Variable) (n : Nat), text.length < n →
        let meaning := fun inner => (s.round^[n] rest inner).map Variable.value
        s.round^[n] rest text = s.get text ∧
          (∀ v, s.writeToBy meaning text v (s.scopeOf text) = s.put text v) ∧
          (∀ v, s.writeToBy meaning text v .shared = s.putShared text v) ∧
          s.removeBy meaning text = s.remove text ∧
          resolveTextBy meaning text = s.resolveText text := by
  constructor
  · intro plan parsed
    have stripped := Plan.expr_of_parse parsed
    refine ⟨stripped, fun inner within => ?_, fun s meaning meaning' same =>
      ⟨AgreeOn.resolvePlan same, AgreeOn.places same⟩⟩
    rw [← String.length_toList (s := plan.expr), stripped]
    exact Plan.length_of_mem_inner parsed within
  · intro s rest n deep meaning
    have same (inner : String) (short : inner.length ≤ text.length) :
        meaning inner = s.getValue inner :=
      congrArg (Except.map Variable.value) (s.iterate_round rest (Nat.lt_of_le_of_lt short deep))
    exact ⟨s.iterate_round rest deep, fun v => writeToBy_eq same v _,
      fun v => writeToBy_eq same v _, removeBy_eq same, resolveTextBy_eq same⟩

/-- Two variables whose values name each other, and themselves. -/
theorem nested_references_shrink_circular :
    let a : Variable := { name := "a", value := .object [("%a[b]%", .text "%b[a]%")] }
    let b : Variable := { name := "b", value := .text "%a[b]%" }
    let s : Store := { memory := { vars := [("a", a), ("b", b)] } }
    let plan : Plan := { expr := "a[b]", root := "a", segments := [.index (.lookup "b")] }
    Plan.parse "%a[b]%" = .ok plan ∧ "b".length < plan.expr.length ∧
      s.resolveText "%a[b]%" = .ok (.text "%b[a]%") := by
  intro a b s plan
  have parsed : Plan.parse "%a[b]%" = .ok plan := by with_unfolding_all rfl
  let rest (expr : String) : Resolved Variable := .error (.invalidExpression expr "too deep")
  obtain ⟨reads, settles⟩ := nested_references_shrink "%a[b]%"
  obtain ⟨-, shorter, -⟩ := reads plan parsed
  obtain ⟨-, -, -, -, replaced⟩ := settles s rest 7 (by decide)
  refine ⟨parsed, shorter "b" (by decide), replaced.symm.trans ?_⟩
  with_unfolding_all rfl

end Store

end GoalScript
