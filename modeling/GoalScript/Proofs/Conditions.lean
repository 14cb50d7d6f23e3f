import GoalScript.Proofs.Courses
import GoalScript.Proofs.Unwinding

namespace GoalScript

theorem mem_takeWhile_iff {α : Type} {p : α → Bool} {l : List α} {a : α} :
    a ∈ l.takeWhile p ↔ ∃ n : Nat, l[n]? = some a ∧ ∀ m ≤ n, ∀ b, l[m]? = some b → p b = true := by
  induction l with
  | nil => simp
  | cons c l ih =>
    cases hc : p c with
    | false =>
      rw [List.takeWhile_cons_of_neg (Bool.eq_false_iff.mp hc)]
      refine ⟨fun h => absurd h List.not_mem_nil, ?_⟩
      rintro ⟨n, -, hall⟩
      cases hc.symm.trans (hall 0 (Nat.zero_le n) c rfl)
    | true =>
      rw [List.takeWhile_cons_of_pos hc, List.mem_cons, ih]
      constructor
      · rintro (rfl | ⟨n, hn, hall⟩)
        · refine ⟨0, rfl, fun m hm b hb => ?_⟩
          obtain rfl := Nat.le_zero.mp hm
          cases hb
          exact hc
        · refine ⟨n + 1, hn, fun m hm b hb => ?_⟩
          cases m with
          | zero =>
            cases hb
            exact hc
          | succ m => exact hall m (Nat.le_of_succ_le_succ hm) b hb
      · rintro ⟨n, hn, hall⟩
        cases n with
        | zero =>
          cases hn
          exact .inl rfl
        | succ n =>
          exact .inr ⟨n, hn, fun m hm b hb => hall (m + 1) (Nat.succ_le_succ hm) b hb⟩

/-- The guard of a step is the nearest one before it that is less indented. -/
def IsGuard (steps : List Step) (g i : Nat) : Prop :=
  ∃ y x, steps[g]? = some y ∧ steps[i]? = some x ∧ g < i ∧ y.indent < x.indent ∧
    ∀ j z, g < j → j < i → steps[j]? = some z → x.indent ≤ z.indent

/-- A step has one guard at most. -/
theorem IsGuard.unique {steps : List Step} {g g' i : Nat} (h : IsGuard steps g i)
    (h' : IsGuard steps g' i) : g = g' := by
  obtain ⟨y, x, hy, hx, hlt, hind, hall⟩ := h
  obtain ⟨y', x', hy', hx', hlt', hind', hall'⟩ := h'
  obtain rfl := Option.some.inj (hx.symm.trans hx')
  rcases Nat.lt_trichotomy g g' with h | h | h
  · have := hall g' y' h hlt' hy'
    omega
  · exact h
  · have := hall' g y h hlt hy
    omega

def Goal.Numbered (goal : Goal) : Prop :=
  ∀ (i : Nat) (s : Step), goal.steps[i]? = some s → s.index = i

def Goal.kept (goal : Goal) : Goal := { goal with steps := numbered goal.steps }

theorem Goal.numbered_kept (goal : Goal) : goal.kept.Numbered := by
  intro i s hs
  simp only [kept, numbered, List.getElem?_mapIdx, Option.map_eq_some_iff] at hs
  obtain ⟨s', -, rfl⟩ := hs
  rfl

/-- The steps that a condition opens or closes are those that it guards and that are one level
deeper. -/
theorem mem_guarded_iff {goal : Goal} (hn : goal.Numbered) {g i : Nat} {y : Step}
    (hy : goal.steps[g]? = some y) :
    i ∈ Run.guarded goal y ↔ IsGuard goal.steps g i ∧
      ∃ x, goal.steps[i]? = some x ∧ x.indent = y.indent + 1 := by
  simp only [Run.guarded, List.mem_map, List.mem_filter, mem_takeWhile_iff, beq_iff_eq,
    decide_eq_true_eq, List.getElem?_drop, hn g y hy]
  constructor
  · rintro ⟨x, ⟨⟨n, hx, hall⟩, hind⟩, hi⟩
    obtain rfl : g + 1 + n = i := (hn _ x hx).symm.trans hi
    refine ⟨⟨y, x, hy, hx, by omega, by omega, fun j z hgj hji hz => ?_⟩, x, hx, hind⟩
    have hj : g + 1 + (j - (g + 1)) = j := by omega
    have deeper := hall (j - (g + 1)) (by omega) z (hj.symm ▸ hz)
    omega
  · rintro ⟨⟨y', x, -, hx, hgi, -, hall⟩, x', hx', hind⟩
    obtain rfl := Option.some.inj (hx.symm.trans hx')
    have hi : g + 1 + (i - (g + 1)) = i := by omega
    refine ⟨x, ⟨⟨i - (g + 1), hi.symm ▸ hx, fun m hm b hb => ?_⟩, hind⟩, hn i x hx⟩
    rcases Nat.lt_or_ge (g + 1 + m) i with hlt | hge
    · have deeper := hall (g + 1 + m) b (by omega) hlt hb
      omega
    · obtain rfl : g + 1 + m = i := by omega
      obtain rfl := Option.some.inj (hx.symm.trans hb)
      omega

example :
    let goal : Goal := Goal.kept { name := "Work", steps := [0, 2, 1, 2, 1, 0, 1].map fun indent =>
      { Step.new "condition" { function := "if" } with indent } }
    goal.steps.map (Run.guarded goal) = [[2, 4], [], [3], [], [], [6], []] := by decide

namespace CallStack

variable {s : CallStack} {i j : Nat}

@[simp] theorem isOpen_enterStep : (s.enterStep i).isOpen j = s.isOpen j := by cases s <;> rfl

@[simp] theorem isOpen_leaveStep : s.leaveStep.isOpen j = s.isOpen j := by cases s <;> rfl

theorem isOpen_setOpen (hs : s ≠ []) (js : List Nat) (open' : Bool) :
    (s.setOpen js open').isOpen j = if j ∈ js then open' else s.isOpen j := by
  cases s with
  | nil => exact absurd rfl hs
  | cons frame rest =>
    by_cases hj : j ∈ js <;> cases open' <;>
      simp [setOpen, modifyTop, isOpen, Frame.isOpen, Frame.setOpen, hj]

theorem isOpen_setOpen_of_ne (h : j ≠ i) : (s.setOpen [i] false).isOpen j = s.isOpen j := by
  cases s with
  | nil => rfl
  | cons frame rest =>
    rw [isOpen_setOpen (List.cons_ne_nil _ _), if_neg fun hj => h (List.mem_singleton.mp hj)]

theorem enterStep_ne_nil (hs : s ≠ []) (i : Nat) : s.enterStep i ≠ [] := by
  cases s with
  | nil => exact absurd rfl hs
  | cons frame rest => exact List.cons_ne_nil _ _

end CallStack

namespace Run

variable {app : App} {site : Site} {effort : Effort} {u v w : World}

/-- A module's function ends in one way only. -/
theorem ModuleEnds.unique {result result' : Except Halt Output} (h : ModuleEnds app site w result u)
    (h' : ModuleEnds app site w result' v) : result = result' ∧ u = v := by
  obtain ⟨m, hm, -, hc⟩ := h
  obtain ⟨m', hm', -, hc'⟩ := h'
  cases hm.symm.trans hm'
  cases hc.symm.trans hc'
  exact ⟨rfl, rfl⟩

theorem ModuleEnds.stack_eq {result : Except Halt Output} (h : ModuleEnds app site w result u) :
    u.engine.stack = w.engine.stack := by
  obtain ⟨m, -, -, hc⟩ := h
  exact (congrArg (fun r => r.2.engine.stack) hc).symm

/-- The module is found, is disabled, or cannot be found. -/
theorem run_moduleOf (step : Step) (w : World) :
    (moduleOf step).run w = match w.engine.registry.registry.get step.moduleType with
      | .ok m => (.ok (some m), w)
      | .error (.disabled _) => (.ok none, w)
      | .error e => (.error (.registry e), w) := by
  rw [moduleOf, run_get_bind]
  rcases w.engine.registry.registry.get step.moduleType with e | m
  · cases e <;> rfl
  · rfl

/-- Unless the module's function is called, an attempt does nothing. -/
theorem moduleEnds_or (app : App) (site : Site) (w : World) :
    (∃ result u, ModuleEnds app site w result u) ∨
    (∀ result u, ¬ ModuleEnds app site w result u) ∧
      ((attempt app (runGoal app) site).run w).2.engine.stack = w.engine.stack := by
  let a := w.record (.attempted site.goal.name site.step.index)
  have found := run_moduleOf site.step a
  rw [attempt, note, run_bind_of_ok (run_update _ w)]
  cases hm : w.engine.registry.registry.get site.step.moduleType with
  | error e =>
    have hm' : a.engine.registry.registry.get site.step.moduleType = .error e := hm
    rw [hm'] at found
    refine .inr ⟨fun result u h => ?_, ?_⟩
    · obtain ⟨m, hm', -⟩ := h
      cases hm.symm.trans hm'
    · cases e with
      | disabled name =>
        rw [run_bind_of_ok found]
        rfl
      | notRegistered name suggestion => rw [run_bind_of_error found]; rfl
      | removed name => rw [run_bind_of_error found]; rfl
  | ok m =>
    have hm' : a.engine.registry.registry.get site.step.moduleType = .ok m := hm
    rw [hm'] at found
    cases hf : m.hasFunction site.step.instruction.function with
    | true => exact .inl ⟨_, _, m, hm, hf, rfl⟩
    | false =>
      refine .inr ⟨fun result u h => ?_, ?_⟩
      · obtain ⟨m', hm'', hf', -⟩ := h
        cases hm.symm.trans hm''
        cases hf.symm.trans hf'
      · rw [run_bind_of_ok found]
        simp only [hf, Bool.not_false, ↓reduceIte]
        rfl

/-- The step's module came to a condition, and nothing has failed after it. -/
def Turn.Branches (app : App) (site : Site) (t : Turn) (taken : Bool) : Prop :=
  (∃ u, ModuleEnds app site t.start (.ok (.branch taken)) u) ∧ t.attempt.1 = .ok .proceed

theorem Turn.Branches.unique {t : Turn} {taken taken' : Bool} (h : t.Branches app site taken)
    (h' : t.Branches app site taken') : taken = taken' := by
  obtain ⟨⟨u, hu⟩, -⟩ := h
  obtain ⟨⟨u', hu'⟩, -⟩ := h'
  cases (hu.unique hu').1
  rfl

/-- What a turn of the step does to the stack, from `s` to `s'`: a condition opens or closes the
steps that it guards, and nothing else does anything. -/
inductive Turn.Moves (app : App) (site : Site) (t : Turn) (s : CallStack) : CallStack → Prop where
  | branches {taken : Bool} (h : t.Branches app site taken) :
    Moves app site t s (s.setOpen (guarded site.goal site.step) taken)
  | stays (h : ∀ taken, ¬ t.Branches app site taken) : Moves app site t s s

theorem Turn.Moves.eq_of_never {t : Turn} {s s' : CallStack} (h : t.Moves app site s s')
    (hn : ∀ taken, ¬ t.Branches app site taken) : s' = s := by
  cases h with
  | branches h => exact absurd h (hn _)
  | stays => rfl

/-- A condition opens or closes the steps that it guards, if the callbacks before that succeed. -/
theorem run_conclude_branch (app : App) (site : Site) (taken : Bool) (w : World) :
    (∃ e v, (conclude app (runGoal app) site (.ok (.branch taken))).run w = (.error e, v) ∧
      v.engine.stack = w.engine.stack) ∨
    ∃ v, (conclude app (runGoal app) site (.ok (.branch taken))).run w = (.ok .proceed, v) ∧
      v.engine.stack = w.engine.stack.setOpen (guarded site.goal site.step) taken := by
  let u := w.record (.succeeded site.goal.name site.step.index)
  have kept : Keeps app anyTime Eq (fire app) u := keeps_fire trivial
  have same : ((fire app).run u).2.engine.stack = w.engine.stack := kept.follows.stack.eq
  have concluded : (conclude app (runGoal app) site (.ok (.branch taken))).run w =
      (fire app >>= fun _ => applyOutput app (runGoal app) site (.branch taken)).run u :=
    run_bind_of_ok (run_update _ w)
  rw [concluded]
  rcases hr : (fire app).run u with ⟨e | _, v⟩
  · rw [hr] at same
    exact .inl ⟨e, v, run_bind_of_error hr, same⟩
  · rw [hr] at same
    exact .inr ⟨_, run_bind_of_ok hr, same ▸ rfl⟩

/-- An attempt moves the stack by nothing but a condition. -/
theorem attempt_moves (app : App) (site : Site) (effort : Effort) (w : World) :
    (turnAt app site effort w).Moves app site w.engine.stack
      (turnAt app site effort w).attempt.2.engine.stack := by
  rcases moduleEnds_or app site w with ⟨result, u, ends⟩ | ⟨never, same⟩
  · have attempted : (turnAt app site effort w).attempt =
        (conclude app (runGoal app) site result).run u := run_attempt ends
    rw [attempted, ← ends.stack_eq]
    by_cases hb : ∃ taken, result = .ok (.branch taken)
    · obtain ⟨taken, rfl⟩ := hb
      rcases run_conclude_branch app site taken u with ⟨e, v, hr, hs⟩ | ⟨v, hr, hs⟩
      · rw [hr, hs]
        refine .stays fun taken' h => ?_
        cases (congrArg Prod.fst (attempted.trans hr)).symm.trans h.2
      · rw [hr, hs]
        exact .branches ⟨⟨u, ends⟩, congrArg Prod.fst (attempted.trans hr)⟩
    · have kept : Keeps app anyTime Eq (conclude app (runGoal app) site result) u :=
        (clears_conclude_of_ne (fun _ _ _ => trivial) (fun _ => trivial)
          fun taken he => hb ⟨taken, he⟩).keeps
      rw [kept.follows.stack.eq]
      refine .stays fun taken h => ?_
      obtain ⟨⟨u', ends'⟩, -⟩ := h
      exact hb ⟨taken, (ends.unique ends').1⟩
  · have attempted : (turnAt app site effort w).attempt.2.engine.stack = w.engine.stack := same
    rw [attempted]
    refine .stays fun taken h => ?_
    obtain ⟨⟨u, ends⟩, -⟩ := h
    exact never _ u ends

/-- A turn moves the stack as its attempt does, and one that has come to a condition is the last. -/
theorem turn_moves (app : App) (site : Site) (effort : Effort) (w : World) :
    (turnAt app site effort w).Moves app site w.engine.stack
      (turnAt app site effort w).verdict.2.engine.stack ∧
    ∀ taken, (turnAt app site effort w).Branches app site taken →
      (turnAt app site effort w).verdict.1 = .ok (.settled .proceed) := by
  have moves := attempt_moves app site effort w
  rcases hr : (attempt app (runGoal app) site).run w with ⟨e | control, u⟩
  · have attempted : (turnAt app site effort w).attempt = (.error e, u) := hr
    have verdict : (turnAt app site effort w).verdict =
        (judge app (runGoal app) site effort e).run u := run_turn_of_error hr
    have kept : Keeps app anyTime Eq (judge app (runGoal app) site effort e) u :=
      keeps_judge (fun _ _ _ => trivial) fun _ => trivial
    refine ⟨?_, fun taken h => ?_⟩
    · rw [verdict, kept.follows.stack.eq]
      rwa [attempted] at moves
    · cases (congrArg Prod.fst attempted).symm.trans h.2
  · have attempted : (turnAt app site effort w).attempt = (.ok control, u) := hr
    have verdict : (turnAt app site effort w).verdict = (.ok (.settled control), u) :=
      run_turn_of_ok hr
    refine ⟨?_, fun taken h => ?_⟩
    · rw [verdict]
      rwa [attempted] at moves
    · cases (congrArg Prod.fst attempted).symm.trans h.2
      exact congrArg Prod.fst verdict

/-- Of all turns only the last moves the stack. -/
theorem Turns.moves {turns : List Turn} {r : Ending Control}
    (h : Turns app site effort w turns r) : ∃ t, turns.getLast? = some t ∧
      t.Moves app site w.engine.stack r.2.engine.stack ∧
      ∀ taken, t.Branches app site taken → r.1 = .ok .proceed := by
  -- A turn that another one follows has not come to a condition.
  have passed {effort : Effort} {w v : World} {verdict : Verdict} {turns : List Turn}
      {r : Ending Control} (h : (turnAt app site effort w).verdict = (.ok verdict, v))
      (hn : verdict ≠ .settled .proceed)
      (ih : ∃ t, turns.getLast? = some t ∧ t.Moves app site v.engine.stack r.2.engine.stack ∧
        ∀ taken, t.Branches app site taken → r.1 = .ok .proceed) :
      ∃ t, (turnAt app site effort w :: turns).getLast? = some t ∧
        t.Moves app site w.engine.stack r.2.engine.stack ∧
        ∀ taken, t.Branches app site taken → r.1 = .ok .proceed := by
    obtain ⟨moves, last⟩ := turn_moves app site effort w
    rw [h] at moves last
    have same : v.engine.stack = w.engine.stack :=
      moves.eq_of_never fun taken hb => hn (Except.ok.inj (last taken hb))
    obtain ⟨t, hl, hm, hb⟩ := ih
    refine ⟨t, ?_, same ▸ hm, hb⟩
    rw [List.getLast?_cons, hl]
    rfl
  induction h with
  | @settled effort w v control h =>
    obtain ⟨moves, last⟩ := turn_moves app site effort w
    rw [h] at moves last
    refine ⟨_, rfl, moves, fun taken hb => ?_⟩
    cases last taken hb
    rfl
  | @failed effort w v e h =>
    obtain ⟨moves, last⟩ := turn_moves app site effort w
    rw [h] at moves last
    exact ⟨_, rfl, moves, fun taken hb => nomatch last taken hb⟩
  | @surrendered effort w v e h =>
    obtain ⟨moves, last⟩ := turn_moves app site effort w
    rw [h] at moves last
    have kept : Keeps app anyTime Eq (surrender app (runGoal app) site e) v :=
      keeps_surrender (fun _ _ _ => trivial) fun _ => trivial
    rw [kept.follows.stack.eq]
    exact ⟨_, rfl, moves, fun taken hb => nomatch last taken hb⟩
  | answered h _ ih => exact passed h nofun ih
  | retried h _ ih => exact passed h nofun ih

def Course.Branches (app : App) (site : Site) (c : Course) (taken : Bool) : Prop :=
  ∃ t v, c.turns.getLast? = some t ∧ t.Branches app site taken ∧
    c.recovered = some (.ok .proceed, v)

theorem Course.Branches.unique {c : Course} {taken taken' : Bool} (h : c.Branches app site taken)
    (h' : c.Branches app site taken') : taken = taken' := by
  obtain ⟨t, v, hl, ht, -⟩ := h
  obtain ⟨t', v', hl', ht', -⟩ := h'
  cases hl.symm.trans hl'
  exact ht.unique ht'

section

variable {here : World} {c : Course} {j : Nat}

/-- What follows the turns closes no step but the one that has been run. -/
theorem isOpen_afterAttempt (hj : j ≠ site.step.index) (v : World) :
    (afterAttempt site v).engine.stack.isOpen j = v.engine.stack.isOpen j := by
  have recorded : Keeps (default : App) anyTime Eq (recordDone site) (closeStep site.step v) :=
    keeps_recordDone
  have same : (afterAttempt site v).engine.stack = (closeStep site.step v).engine.stack :=
    recorded.follows.stack.eq
  rw [same, closeStep]
  split
  · exact CallStack.isOpen_setOpen_of_ne hj
  · rfl

/-- Of all that a step does only its last turn moves the stack, but for the step itself. -/
theorem StepRuns.moves {control : Control} (h : StepRuns app site here c)
    (he : c.ending = (.ok control, v)) : ∃ t a, c.turns.getLast? = some t ∧
      c.recovered = some (.ok control, a) ∧
      t.Moves app site (here.engine.stack.enterStep site.step.index) a.engine.stack ∧
      (∀ taken, t.Branches app site taken → control = .proceed) ∧
      ∀ j, j ≠ site.step.index → v.engine.stack.isOpen j = a.engine.stack.isOpen j := by
  cases h with
  | refused events => cases he
  | failed events attempts => cases he
  | disturbed events attempts ends => cases he
  | @finished before after turns control u a x events attempts ends =>
    cases he
    obtain ⟨t, hl, moves, proceeds⟩ := attempts.moves
    have entered : u.engine.stack = here.engine.stack.enterStep site.step.index :=
      events.follows.stack.eq
    have kept : Keeps app anyTime Eq (runDeferred app (runGoal app)) x :=
      keeps_runDeferred (fun _ _ _ => trivial) fun _ => trivial
    refine ⟨t, a, hl, rfl, entered ▸ moves, fun taken hb => ?_, fun j hj => ?_⟩
    · cases proceeds taken hb
      rfl
    · refine CallStack.isOpen_leaveStep.trans ?_
      rw [kept.follows.stack.eq, ends.follows.stack.eq, isOpen_afterAttempt hj]

/-- A step that has come to a condition opens or closes the steps that it guards; otherwise the
steps after it are as open as before. -/
theorem StepRuns.isOpen {control : Control} (h : StepRuns app site here c)
    (he : c.ending = (.ok control, v)) (hs : here.engine.stack ≠ [])
    (hj : j ≠ site.step.index) :
    (∀ taken, c.Branches app site taken → v.engine.stack.isOpen j =
      if j ∈ guarded site.goal site.step then taken else here.engine.stack.isOpen j) ∧
    ((∀ taken, ¬ c.Branches app site taken) →
      v.engine.stack.isOpen j = here.engine.stack.isOpen j) := by
  obtain ⟨t, a, hl, hr, moves, proceeds, same⟩ := h.moves he
  rw [same j hj]
  generalize a.engine.stack = after at moves
  cases moves with
  | @branches taken hb =>
    have branched : c.Branches app site taken := ⟨t, a, hl, hb, proceeds taken hb ▸ hr⟩
    refine ⟨fun taken' hb' => ?_, fun hn => absurd branched (hn taken)⟩
    rw [branched.unique hb', CallStack.isOpen_setOpen (CallStack.enterStep_ne_nil hs _),
      CallStack.isOpen_enterStep]
  | stays hn =>
    refine ⟨?_, fun _ => CallStack.isOpen_enterStep⟩
    rintro taken ⟨t', v', hl', hb, -⟩
    cases hl.symm.trans hl'
    exact absurd hb (hn taken)

end

/-- This step was run and came to a condition that holds, and it guards the step `j`. -/
def Visit.Opens (app : App) (goal : Goal) (y : Visit) (j : Nat) : Prop :=
  ∃ c, y.course = some c ∧ c.Branches app ⟨goal, y.step⟩ true ∧ j ∈ guarded goal y.step

section

variable {goal : Goal} {steps : List Step} {visits earlier : List Visit} {r : Ending Control}
  {j : Nat}

/-- No other visited step has the same guard as a step that this one guards. -/
theorem not_opens_of_guarded (app : App) (hn : goal.Numbered) {step : Step}
    (hs : earlier.map Visit.step ++ step :: steps = goal.steps) (hj : j ∈ guarded goal step) :
    ¬ ∃ y ∈ earlier, y.Opens app goal j := by
  rintro ⟨y, hy, c, -, -, hyj⟩
  obtain ⟨g, hg, rfl⟩ := List.getElem_of_mem hy
  have before : goal.steps[g]? = some earlier[g].step := by
    rw [← hs, List.getElem?_append_left (by simpa using hg)]
    simp [hg]
  have this : goal.steps[earlier.length]? = some step := by
    rw [← hs, List.getElem?_append_right (by simp)]
    simp
  have same : g = earlier.length :=
    ((mem_guarded_iff hn before).mp hyj).1.unique ((mem_guarded_iff hn this).mp hj).1
  omega

/-- The steps after one that is run are open as the conditions up to it say. -/
theorem StepRuns.isOpen_iff (hn : goal.Numbered) {step : Step} {c : Course} {control : Control}
    (h : StepRuns app ⟨goal, step⟩ w c) (he : c.ending = (.ok control, v))
    (hs : earlier.map Visit.step ++ step :: steps = goal.steps) (hne : w.engine.stack ≠ [])
    (hj : j ≠ step.index)
    (hw : w.engine.stack.isOpen j = true ↔ ∃ y ∈ earlier, y.Opens app goal j) :
    v.engine.stack.isOpen j = true ↔
      ∃ y ∈ earlier ++ [⟨step, w, some c⟩], y.Opens app goal j := by
  obtain ⟨branched, kept⟩ := h.isOpen he hne hj
  have last : (∃ y ∈ earlier ++ [⟨step, w, some c⟩], y.Opens app goal j) ↔
      (∃ y ∈ earlier, y.Opens app goal j) ∨ c.Branches app ⟨goal, step⟩ true ∧
        j ∈ guarded goal step := by
    simp only [List.mem_append, List.mem_singleton, or_and_right, exists_or, exists_eq_left]
    refine or_congr_right ⟨?_, fun hb => ⟨c, rfl, hb⟩⟩
    rintro ⟨c', hc, hb⟩
    cases hc
    exact hb
  rw [last]
  by_cases hb : ∃ taken, c.Branches app ⟨goal, step⟩ taken
  · obtain ⟨taken, hb⟩ := hb
    rw [branched taken hb]
    by_cases hg : j ∈ guarded goal step
    · have none := not_opens_of_guarded app hn hs hg
      simp only [hg, none, ↓reduceIte, false_or, and_true]
      refine ⟨fun ht => ht ▸ hb, fun ht => hb.unique ht⟩
    · simp only [hg, hw, ↓reduceIte, and_false, or_false]
  · rw [kept fun taken ht => hb ⟨taken, ht⟩, hw]
    refine ⟨.inl, fun ho => ho.resolve_right fun ht => hb ⟨true, ht.1⟩⟩

/-- How the steps after the first visit see what that visit has opened. -/
theorem isOpen_iff_cons {x₀ : Visit}
    (first : x₀.here.engine.stack.isOpen earlier.length = true ↔
      ∃ y ∈ earlier, y.Opens app goal earlier.length)
    (later : ∀ (i : Nat) x, visits[i]? = some x →
      (x.here.engine.stack.isOpen ((earlier ++ [x₀]).length + i) = true ↔
        ∃ y ∈ earlier ++ [x₀] ++ visits.take i,
          y.Opens app goal ((earlier ++ [x₀]).length + i))) :
    ∀ (i : Nat) x, (x₀ :: visits)[i]? = some x →
      (x.here.engine.stack.isOpen (earlier.length + i) = true ↔
        ∃ y ∈ earlier ++ (x₀ :: visits).take i, y.Opens app goal (earlier.length + i)) := by
  intro i x hx
  cases i with
  | zero =>
    cases hx
    rw [List.take_zero, List.append_nil]
    exact first
  | succ i =>
    have hi := later i x hx
    rw [List.length_append, List.length_singleton, Nat.add_assoc, Nat.add_comm 1 i,
      List.append_assoc] at hi
    exact hi

/-- At every step that the loop gets to, the step is open if a visited step that guards it came to a
condition that holds, and only then. -/
theorem Loop.isOpen_iff (hn : goal.Numbered) (h : Loop app goal steps w visits r)
    (hs : earlier.map Visit.step ++ steps = goal.steps) (hne : w.engine.stack ≠ [])
    (hw : ∀ j, earlier.length ≤ j →
      (w.engine.stack.isOpen j = true ↔ ∃ y ∈ earlier, y.Opens app goal j)) :
    ∀ (i : Nat) x, visits[i]? = some x →
      (x.here.engine.stack.isOpen (earlier.length + i) = true ↔
        ∃ y ∈ earlier ++ visits.take i, y.Opens app goal (earlier.length + i)) := by
  induction h generalizing earlier with
  | done =>
    intro i x hx
    cases hx
  | @passed step rest w visits r passes others ih =>
    refine isOpen_iff_cons (hw _ (Nat.le_refl _)) (ih ?_ hne fun j hj => ?_)
    · rw [List.map_append, List.append_assoc]
      exact hs
    · have hj : earlier.length ≤ j := by
        rw [List.length_append] at hj
        omega
      have idle : ¬ Visit.Opens app goal ⟨step, w, none⟩ j := by
        rintro ⟨c, hc, -⟩
        cases hc
      simp only [hw j hj, List.mem_append, List.mem_singleton, or_and_right, exists_or,
        exists_eq_left, idle, or_false]
  | @gone step rest w v c visits r passes runs ends others ih =>
    have follows := runs.follows passes
    rw [ends] at follows
    refine isOpen_iff_cons (hw _ (Nat.le_refl _)) (ih ?_ ?_ fun j hj => ?_)
    · rw [List.map_append, List.append_assoc]
      exact hs
    · exact fun hv => hne (List.length_eq_zero_iff.mp (follows.stack.length_eq ▸ by rw [hv]; rfl))
    · rw [List.length_append, List.length_singleton] at hj
      have hidx : step.index = earlier.length := by
        refine hn earlier.length step ?_
        rw [← hs, List.getElem?_append_right (by simp)]
        simp
      exact runs.isOpen_iff hn ends hs hne (by omega) (hw j (by omega))
  | stopped passes runs ends stops =>
    exact isOpen_iff_cons (hw _ (Nat.le_refl _)) fun i x hx => by cases hx
  | failed passes runs ends =>
    exact isOpen_iff_cons (hw _ (Nat.le_refl _)) fun i x hx => by cases hx

theorem Loop.getElem?_step (h : Loop app goal steps w visits r) {i : Nat} {x : Visit}
    (hx : visits[i]? = some x) : steps[i]? = some x.step := by
  have hi : (visits.map Visit.step)[i]? = some x.step := by
    rw [List.getElem?_map, hx]
    rfl
  obtain ⟨rest, rfl⟩ := h.isPrefix
  exact List.getElem?_append_left (List.getElem?_eq_some_iff.mp hi).1 ▸ hi

/-- The guard of the step `i`, which is visited as `x`, is one level above it, was run as well and
came to a condition that holds. -/
def GuardHolds (app : App) (goal : Goal) (visits : List Visit) (i : Nat) (x : Visit) : Prop :=
  ∃ g y c, IsGuard goal.steps g i ∧ visits[g]? = some y ∧ y.step.indent + 1 = x.step.indent ∧
    y.course = some c ∧ c.Branches app ⟨goal, y.step⟩ true

/-- The guard of a visited step has been visited before it. -/
theorem Loop.opens_iff (hn : goal.Numbered) (h : Loop app goal goal.steps w visits r) {i : Nat}
    {x : Visit} (hx : visits[i]? = some x) :
    (∃ y ∈ visits.take i, y.Opens app goal i) ↔ GuardHolds app goal visits i x := by
  have hxi : goal.steps[i]? = some x.step := h.getElem?_step hx
  constructor
  · rintro ⟨y, hy, c, hc, hb, hg⟩
    obtain ⟨g, hgi, hy⟩ := List.mem_take_iff_getElem.mp hy
    have hy : visits[g]? = some y := List.getElem?_eq_some_iff.mpr ⟨_, hy⟩
    have hyg : goal.steps[g]? = some y.step := h.getElem?_step hy
    obtain ⟨hguard, x', hx', hind⟩ := (mem_guarded_iff hn hyg).mp hg
    cases hxi.symm.trans hx'
    exact ⟨g, y, c, hguard, hy, hind.symm, hc, hb⟩
  · rintro ⟨g, y, c, hguard, hy, hind, hc, hb⟩
    have hyg : goal.steps[g]? = some y.step := h.getElem?_step hy
    have hgi : g < i := by
      obtain ⟨_, _, -, -, hlt, -⟩ := hguard
      exact hlt
    refine ⟨y, ?_, c, hc, hb, (mem_guarded_iff hn hyg).mpr ⟨hguard, x.step, hxi, hind.symm⟩⟩
    exact List.mem_of_getElem? ((List.getElem?_take_of_lt hgi).trans hy)

/-- A goal starts with all its conditional steps closed. -/
theorem isOpen_enterGoal (inv : Invocation) (w : World) (j : Nat) :
    (enterGoal inv w).engine.stack.isOpen j = false := by
  obtain ⟨registry, host, he, -⟩ := enterGoal_eq inv w
  rw [he]
  rfl

theorem tail_enterGoal (inv : Invocation) (w : World) :
    (enterGoal inv w).engine.stack.tail = w.engine.stack := by
  obtain ⟨registry, host, he, -⟩ := enterGoal_eq inv w
  rw [he]
  rfl

/-- The loop of a goal starts with all conditional steps closed, so that only its own conditions
count. -/
theorem Loop.isOpen_iff_guard (inv : Invocation) {before : List Firing} (hn : inv.goal.Numbered)
    (events : Announced app (goalOccasion inv.goal .before) (goalValues inv.goal)
      (enterGoal inv w) before (.ok (), v))
    (h : Loop app inv.goal inv.goal.steps v visits r) {i : Nat} {x : Visit}
    (hx : visits[i]? = some x) :
    x.here.engine.stack.isOpen i = true ↔ GuardHolds app inv.goal visits i x := by
  have entered : v.engine.stack = (enterGoal inv w).engine.stack := events.follows.stack.eq
  have nonempty : v.engine.stack ≠ [] := by
    intro hv
    have deeper := depth_enterGoal inv w
    rw [← entered, hv] at deeper
    cases deeper
  have closed (j : Nat) (hj : ([] : List Visit).length ≤ j) :
      v.engine.stack.isOpen j = true ↔ ∃ y ∈ ([] : List Visit), y.Opens app inv.goal j := by
    rw [entered, isOpen_enterGoal]
    exact ⟨nofun, fun ⟨y, hy, _⟩ => absurd hy List.not_mem_nil⟩
  have reached := h.isOpen_iff hn rfl nonempty closed i x hx
  simp only [List.length_nil, Nat.zero_add, List.nil_append] at reached
  exact reached.trans (h.opens_iff hn hx)

/-- What is so of every step that a goal gets to: an indented one that is neither disabled nor done
before is run if its guard holds, and only then. -/
def FollowGuards (app : App) (goal : Goal) (visits : List Visit) : Prop :=
  ∀ (i : Nat) x, visits[i]? = some x → goal.steps[i]? = some x.step ∧
    (x.step.disabled = false →
      (x.step.runOnce && x.here.store.isRecorded (ledgerKey goal x.step)) = false →
      0 < x.step.indent → (x.course.isSome ↔ GuardHolds app goal visits i x))

/-- The visits of a loop follow their guards, as the frame of the goal is new where it starts. -/
theorem Loop.followGuards (inv : Invocation) {before : List Firing} (hn : inv.goal.Numbered)
    (events : Announced app (goalOccasion inv.goal .before) (goalValues inv.goal)
      (enterGoal inv w) before (.ok (), v))
    (h : Loop app inv.goal inv.goal.steps v visits r) : FollowGuards app inv.goal visits := by
  intro i x hx
  have hxi : inv.goal.steps[i]? = some x.step := h.getElem?_step hx
  refine ⟨hxi, fun enabled fresh deep => ?_⟩
  have passes : passesOver x.here ⟨inv.goal, x.step⟩ = !x.here.engine.stack.isOpen i := by
    simp only [passesOver, enabled, fresh, deep, hn i _ hxi, decide_true, Bool.true_and,
      Bool.false_or, Bool.or_false]
  have passed := (h.visited x (List.mem_of_getElem? hx)).2.course_eq_none_iff
  rw [passes, Bool.not_eq_true'] at passed
  rw [← h.isOpen_iff_guard inv hn events hx, ← Option.ne_none_iff_isSome, ne_eq, passed,
    Bool.not_eq_false]

/-- So do the visits in every course of a goal. -/
theorem GoalRuns.followGuards {inv : Invocation} {c : GoalCourse} (hn : inv.goal.Numbered)
    (h : GoalRuns app inv w c) : FollowGuards app inv.goal c.visits := by
  cases h with
  | refused events =>
    intro i x hx
    cases hx
  | failed events steps => exact steps.followGuards inv hn events
  | disturbed events steps ends => exact steps.followGuards inv hn events
  | finished events steps ends => exact steps.followGuards inv hn events

end

/-- In every run of a goal a conditional step is run if the step that guards it is one level above
it, was run before it in the same run of the goal and came to a condition that holds, and only then.
The run starts with no step open, and leaves alone what is open in the runs around it. -/
theorem conditions_guard_their_steps (app : App) (goal : Goal) (origin : Option EventOrigin)
    (locals : Table Value) (w : World) :
    (∃ c, GoalRuns app ⟨goal.kept, origin, locals⟩ w c) ∧
    (∀ c, GoalRuns app ⟨goal.kept, origin, locals⟩ w c →
      FollowGuards app goal.kept c.visits ∧
      (w.engine.stack.length < app.config.maxCallDepth →
        (runGoal app ⟨goal.kept, origin, locals⟩).run w = c.ending)) ∧
    (∀ j, (enterGoal ⟨goal.kept, origin, locals⟩ w).engine.stack.isOpen j = false) ∧
    (enterGoal ⟨goal.kept, origin, locals⟩ w).engine.stack.tail = w.engine.stack ∧
    ((runGoal app ⟨goal.kept, origin, locals⟩).run w).2.engine.stack = w.engine.stack := by
  have left : Keeps app anyTime Eq (runGoal app ⟨goal.kept, origin, locals⟩) w :=
    keeps_runGoal trivial
  refine ⟨exists_goalRuns app _ w, fun c h => ⟨?_, h.run_eq⟩, ?_, ?_, left.follows.stack.eq⟩
  · exact h.followGuards goal.numbered_kept
  · exact isOpen_enterGoal _ w
  · exact tail_enterGoal _ w

end Run

end GoalScript
