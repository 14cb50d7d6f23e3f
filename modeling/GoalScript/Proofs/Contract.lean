import GoalScript.Run.Task

namespace GoalScript

/-- What a run owes before it waits for a task, and what it may rely on afterwards. A run is read
once against a contract; that the carried out run is as promised follows for every way to carry out
tasks that keeps the contract. -/
structure Contract where
  -- Holds of every world that a change leads to.
  always : World → Prop
  -- Holds when a task is begun.
  owes : Task → World → Prop
  -- Holds of what a task, begun in this world, comes to.
  grants : Task → World → Ending Control → Prop

namespace Run

variable {α β : Type}

/-- Under the contract every outcome of the run, started in a world, is as wanted. -/
def Meets (c : Contract) : Run α → (Ending α → Prop) → World → Prop
  | done result, post, w => post (result, w)
  | change f next, post, w => c.always (f w) ∧ Meets c (next (f w)) post (f w)
  | await task next, post, w =>
    c.owes task w ∧ ∀ e, c.grants task w e → Meets c (next e.1) post e.2

variable {c : Contract} {w : World}

/-- Less may be wanted of the outcome. -/
theorem Meets.mono {p : Run α} {post post' : Ending α → Prop}
    (h : p.Meets c post w) (hp : ∀ e, post e → post' e) : p.Meets c post' w := by
  induction p generalizing w with
  | done result => exact hp _ h
  | change f next ih => exact ⟨h.1, ih (f w) h.2⟩
  | await task next ih => exact ⟨h.1, fun e he => ih e.1 (h.2 e he)⟩

theorem Meets.and {p : Run α} {post post' : Ending α → Prop} (h : p.Meets c post w)
    (h' : p.Meets c post' w) : p.Meets c (fun e => post e ∧ post' e) w := by
  induction p generalizing w with
  | done result => exact ⟨h, h'⟩
  | change f next ih => exact ⟨h.1, ih (f w) h.2 h'.2⟩
  | await task next ih => exact ⟨h.1, fun e he => ih e.1 (h.2 e he) (h'.2 e he)⟩

/-- What is owed under a weaker contract is owed under this one. -/
theorem Meets.weaken {c' : Contract} {p : Run α} {post : Ending α → Prop}
    (h : p.Meets c post w) (ha : ∀ v, c.always v → c'.always v)
    (ho : ∀ t v, c.owes t v → c'.owes t v)
    (hg : ∀ t v e, c.owes t v → c'.grants t v e → c.grants t v e) : p.Meets c' post w := by
  induction p generalizing w with
  | done result => exact h
  | change f next ih => exact ⟨ha _ h.1, ih (f w) h.2⟩
  | await task next ih =>
    exact ⟨ho _ _ h.1, fun e he => ih e.1 (h.2 e (hg _ _ e h.1 he))⟩

/-- What goes on with a run owes what it owes where the run has ended. -/
theorem meets_andThen {p : Run α} {next : Except EngineError α → Run β}
    {post : Ending β → Prop} :
    (p.andThen next).Meets c post w ↔ p.Meets c (fun e => (next e.1).Meets c post e.2) w := by
  induction p generalizing w with
  | done result => exact Iff.rfl
  | change f rest ih => exact and_congr_right fun _ => ih (f w)
  | await task rest ih =>
    exact and_congr_right fun _ => forall_congr' fun e => imp_congr_right fun _ => ih e.1

/-- The rest of a run is reached only if its first part succeeds. -/
theorem meets_bind {p : Run α} {f : α → Run β} {post : Ending β → Prop} :
    (p >>= f).Meets c post w ↔
      p.Meets c (fun e => match e.1 with
        | .ok a => (f a).Meets c post e.2
        | .error x => post (.error x, e.2)) w := by
  refine meets_andThen.trans ⟨fun h => h.mono ?_, fun h => h.mono ?_⟩
  all_goals
    rintro ⟨result, v⟩ he
    cases result <;> exact he

@[simp] theorem meets_pure {a : α} {post : Ending α → Prop} :
    (pure a : Run α).Meets c post w ↔ post (.ok a, w) := Iff.rfl

@[simp] theorem meets_throw {x : EngineError} {post : Ending α → Prop} :
    (throw x : Run α).Meets c post w ↔ post (.error x, w) := Iff.rfl

@[simp] theorem meets_update {f : World → World} {post : Ending Unit → Prop} :
    (update f).Meets c post w ↔ c.always (f w) ∧ post (.ok (), f w) := Iff.rfl

@[simp] theorem meets_set {v : World} {post : Ending PUnit → Prop} :
    (set v : Run PUnit).Meets c post w ↔ c.always v ∧ post (.ok ⟨⟩, v) := Iff.rfl

/-- Looking at the world leads nowhere else. -/
@[simp] theorem meets_get_bind {f : World → Run β} {post : Ending β → Prop} :
    ((get : Run World) >>= f).Meets c post w ↔ c.always w ∧ (f w).Meets c post w := Iff.rfl

@[simp] theorem meets_outcome {p : Run α} {post : Ending (Except EngineError α) → Prop} :
    (outcome p).Meets c post w ↔ p.Meets c (fun e => post (.ok e.1, e.2)) w := meets_andThen

@[simp] theorem meets_afterwards {p : Run α} {restore : World → World}
    {post : Ending α → Prop} :
    (afterwards p restore).Meets c post w ↔
      p.Meets c (fun e => c.always (restore e.2) ∧ post (e.1, restore e.2)) w := meets_andThen

variable {tasks tasks' : Task → World → Ending Control}

/-- If tasks are carried out as granted, the run ends as wanted. -/
theorem Meets.ending {p : Run α} {post : Ending α → Prop} (h : p.Meets c post w)
    (ht : ∀ t v, c.owes t v → c.grants t v (tasks t v)) : post (exec tasks p w) := by
  induction p generalizing w with
  | done result => exact h
  | change f next ih => exact ih (f w) h.2
  | await task next ih => exact ih _ (h.2 _ (ht task w h.1))

/-- Two ways to carry out tasks that agree wherever one is begun come to the same. -/
theorem Meets.exec_congr {p : Run α} {post : Ending α → Prop} (h : p.Meets c post w)
    (ht : ∀ t v, c.owes t v → c.grants t v (tasks t v))
    (he : ∀ t v, c.owes t v → tasks t v = tasks' t v) : exec tasks p w = Run.exec tasks' p w := by
  induction p generalizing w with
  | done result => rfl
  | change f next ih => exact ih (f w) h.2
  | await task next ih =>
    simp only [Run.exec, ← he task w h.1]
    exact ih _ (h.2 _ (ht task w h.1))

end Run

end GoalScript
