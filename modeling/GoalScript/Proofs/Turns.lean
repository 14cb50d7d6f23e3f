import GoalScript.Proofs.Passage

namespace GoalScript.Run

/-- A turn at a step: the world it starts in, how the attempt ends and what is made of it. -/
structure Turn where
  start : World
  attempt : Ending Control
  verdict : Ending Verdict

def Turn.isAnswered (t : Turn) : Bool :=
  match t.verdict.1 with
  | .ok .answered => true
  | _ => false

/-- The failure of the attempt, unless an answer was applied. -/
def Turn.failure? (t : Turn) : Option EngineError :=
  match t.attempt.1 with
  | .error e => if t.isAnswered then none else some e
  | .ok _ => none

def turnAt (app : App) (site : Site) (effort : Effort) (w : World) : Turn where
  start := w
  attempt := (attempt app (runGoal app) site).run w
  verdict := (turn app (runGoal app) site effort).run w

/-- The turns of a recovery, each of which starts where the one before has ended, and what the
recovery comes to. -/
inductive Turns (app : App) (site : Site) :
    Effort → World → List Turn → Ending Control → Prop where
  | settled {effort : Effort} {w v : World} {control : Control}
    (h : (turnAt app site effort w).verdict = (.ok (.settled control), v)) :
    Turns app site effort w [turnAt app site effort w] (.ok control, v)
  | failed {effort : Effort} {w v : World} {e : EngineError}
    (h : (turnAt app site effort w).verdict = (.error e, v)) :
    Turns app site effort w [turnAt app site effort w] (.error e, v)
  | surrendered {effort : Effort} {w v : World} {e : EngineError}
    (h : (turnAt app site effort w).verdict = (.ok (.surrender e), v)) :
    Turns app site effort w [turnAt app site effort w]
      ((surrender app (runGoal app) site e).run v)
  | answered {effort : Effort} {w v : World} {turns : List Turn} {r : Ending Control}
    (h : (turnAt app site effort w).verdict = (.ok .answered, v))
    (rest : Turns app site effort v turns r) :
    Turns app site effort w (turnAt app site effort w :: turns) r
  | retried {effort : Effort} {w v : World} {e : EngineError} {turns : List Turn}
    {r : Ending Control} (h : (turnAt app site effort w).verdict = (.ok (.retry e), v))
    (rest : Turns app site (effort.afterRetry e) v turns r) :
    Turns app site effort w (turnAt app site effort w :: turns) r

variable {app : App} {site : Site} {effort : Effort} {e : EngineError} {u v w : World}
  {turns : List Turn} {r : Ending Control}

/-- How a failed attempt is judged, in all cases. -/
theorem judged (app : App) (site : Site) (effort : Effort) (e : EngineError) (w : World) :
    Judged site effort e w ((judge app (runGoal app) site effort e).run w) := by
  have h : (judge app (runGoal app) site effort e).Meets
      (inside app w.engine.stack.length w.engine.registry anyTime) (Judged site effort e w) w :=
    meets_judge (fun _ _ _ => trivial) fun _ => trivial
  exact h.ending fun t v _ => follows_perform t v

/-- What a turn comes to, in all cases. -/
theorem turned (app : App) (site : Site) (effort : Effort) (w : World) :
    Turned site effort w ((turn app (runGoal app) site effort).run w) := by
  have h : (turn app (runGoal app) site effort).Meets
      (inside app w.engine.stack.length w.engine.registry anyTime) (Turned site effort w) w :=
    meets_turn (fun _ _ _ => trivial) fun _ => trivial
  exact h.ending fun t v _ => follows_perform t v

/-- Every recovery has its turns. -/
theorem exists_turns (app : App) (site : Site) (effort : Effort) (w : World) :
    ∃ turns, Turns app site effort w turns
      ((recovery app (runGoal app) site effort).run w) := by
  induction hn : turnsLeft site effort w using Nat.strongRecOn generalizing effort w with
  | ind n ih =>
    have ht := turned app site effort w
    rw [recovery, run_bind]
    rcases hv : (turn app (runGoal app) site effort).run w with ⟨_ | verdict, v⟩
    · exact ⟨_, .failed hv⟩
    rw [hv] at ht
    cases verdict with
    | settled control => exact ⟨_, .settled hv⟩
    | surrender e => exact ⟨_, .surrendered hv⟩
    | answered =>
      have hlt := turnsLeft_lt_of_answer site effort (ht.answered rfl)
      obtain ⟨turns, h⟩ := ih _ (hn ▸ hlt) effort v rfl
      rw [← perform_recovery] at h
      exact ⟨_, .answered hv h⟩
    | retry e =>
      have hlt := turnsLeft_lt_of_retry (e := e) ht.follows.replies (ht.retry e rfl)
      obtain ⟨turns, h⟩ := ih _ (hn ▸ hlt) (effort.afterRetry e) v rfl
      rw [← perform_recovery] at h
      exact ⟨_, .retried hv h⟩

/-- Each turn but the last is owed to an answer or to a retry. -/
theorem Turns.length_le (h : Turns app site effort w turns r) :
    turns.length ≤
      1 + turns.countP Turn.isAnswered + (site.step.maxRetries - effort.retries) := by
  induction h with
  | settled h => simp only [List.length_singleton]; omega
  | failed h => simp only [List.length_singleton]; omega
  | surrendered h => simp only [List.length_singleton]; omega
  | @answered effort w v turns r h rest ih =>
    have ha : (turnAt app site effort w).isAnswered := by simp only [Turn.isAnswered, h]
    rw [List.countP_cons_of_pos ha, List.length_cons]
    omega
  | @retried effort w v e turns r h rest ih =>
    have hr : effort.retries < site.step.maxRetries :=
      (turned app site effort w).retry e (congrArg Prod.fst h)
    simp only [Effort.afterRetry] at ih
    rw [List.countP_cons, List.length_cons]
    omega

/-- A final failure is the last one, and nothing happens after it. -/
theorem Turns.of_isFinal (h : Turns app site effort w turns r) {t : Turn} (hm : t ∈ turns)
    (ht : t.attempt = (.error e, u)) (hf : e.kind.isFinal) :
    turns.getLast? = some t ∧ r = (.error e, u) := by
  have ends {effort : Effort} {w : World} (h : (turnAt app site effort w).attempt = (.error e, u)) :
      (turnAt app site effort w).verdict = (.error e, u) := by
    refine (run_turn_of_error h).trans ?_
    simp only [judge, hf, ↓reduceIte]
    rfl
  induction h with
  | settled h =>
    obtain rfl := List.mem_singleton.mp hm
    cases congrArg Prod.fst ((ends ht).symm.trans h)
  | failed h =>
    obtain rfl := List.mem_singleton.mp hm
    cases (ends ht).symm.trans h
    exact ⟨rfl, rfl⟩
  | surrendered h =>
    obtain rfl := List.mem_singleton.mp hm
    cases congrArg Prod.fst ((ends ht).symm.trans h)
  | answered h rest ih =>
    rcases List.mem_cons.mp hm with rfl | hm
    · cases congrArg Prod.fst ((ends ht).symm.trans h)
    · obtain ⟨hl, hr⟩ := ih hm
      exact ⟨by rw [List.getLast?_cons, hl]; rfl, hr⟩
  | retried h rest ih =>
    rcases List.mem_cons.mp hm with rfl | hm
    · cases congrArg Prod.fst ((ends ht).symm.trans h)
    · obtain ⟨hl, hr⟩ := ih hm
      exact ⟨by rw [List.getLast?_cons, hl]; rfl, hr⟩

/-- What a turn that fails without an answer leads to comes from judging its failure. -/
theorem failure_of_verdict {verdict : Verdict}
    (h : (turnAt app site effort w).verdict = (.ok verdict, v)) (hn : verdict ≠ .answered)
    (hs : ∀ control, verdict ≠ .settled control) :
    ∃ e u, (turnAt app site effort w).failure? = some e ∧
      (judge app (runGoal app) site effort e).run u = (.ok verdict, v) := by
  have ha : (turnAt app site effort w).isAnswered = false := by
    simp only [Turn.isAnswered, h]
    cases verdict <;> first | rfl | exact absurd rfl hn
  rcases hr : (attempt app (runGoal app) site).run w with ⟨e | control, u⟩
  · have hat : (turnAt app site effort w).attempt = (.error e, u) := hr
    have hf : (turnAt app site effort w).failure? = some e := by
      simp only [Turn.failure?, hat, ha, Bool.false_eq_true, ↓reduceIte]
    exact ⟨e, u, hf, (run_turn_of_error hr).symm.trans h⟩
  · have hv := (run_turn_of_ok hr).symm.trans h
    exact absurd rfl (by cases hv; exact hs control)

/-- What is reported is the first failure that no answer has undone, and its events are the end. -/
theorem Turns.reported (h : Turns app site effort w turns r) {t : Turn} (hm : t ∈ turns)
    (ht : t.verdict = (.ok (.surrender e), v)) :
    effort.first.or (turns.findSome? Turn.failure?) = some e ∧
      r = (surrender app (runGoal app) site e).run v := by
  induction h with
  | settled h =>
    obtain rfl := List.mem_singleton.mp hm
    cases congrArg Prod.fst (ht.symm.trans h)
  | failed h =>
    obtain rfl := List.mem_singleton.mp hm
    cases congrArg Prod.fst (ht.symm.trans h)
  | @surrendered effort w u x h =>
    obtain rfl := List.mem_singleton.mp hm
    obtain ⟨e₀, u', hf, hj⟩ := failure_of_verdict ht nofun nofun
    have he := (judged app site effort e₀ u').surrendered e (congrArg Prod.fst hj)
    refine ⟨?_, ?_⟩
    · rw [List.findSome?_singleton, hf, he]
      cases effort.first <;> rfl
    · have hu : v = u := congrArg Prod.snd (ht.symm.trans h)
      cases congrArg Prod.fst (ht.symm.trans h)
      rw [hu]
  | @answered effort w u turns r h rest ih =>
    have hf : (turnAt app site effort w).failure? = none := by
      have ha : (turnAt app site effort w).isAnswered := by simp only [Turn.isAnswered, h]
      unfold Turn.failure?
      split
      · exact if_pos ha
      · rfl
    rcases List.mem_cons.mp hm with rfl | hm
    · cases congrArg Prod.fst (ht.symm.trans h)
    · rw [List.findSome?_cons_of_isNone (by rw [hf]; rfl)]
      exact ih hm
  | @retried effort w u x turns r h rest ih =>
    obtain ⟨e₀, u', hf, hj⟩ := failure_of_verdict h nofun nofun
    have hx := (judged app site effort e₀ u').retried x (congrArg Prod.fst hj)
    rcases List.mem_cons.mp hm with rfl | hm
    · cases congrArg Prod.fst (ht.symm.trans h)
    · obtain ⟨hi, hr⟩ := ih hm
      refine ⟨?_, hr⟩
      -- The retry has set the failure to report, and it stays.
      have hi : some x = some e := hi
      rw [List.findSome?_cons_of_isSome (by rw [hf]; rfl), hf, ← hi, hx]
      cases effort.first <;> rfl

theorem request?_of_recoverable (hk : e.kind = .recoverable) : e.request? = none := by
  cases e with
  | memory e => cases e <;> first | rfl | cases hk
  | interactive request => cases hk
  | _ => rfl

section

variable {handler : ErrorHandler} {policy : RetryPolicy} (hk : e.kind = .recoverable)
  (hh : site.step.handlerFor? e = some handler) (hg : handler.goalToCall = none)
  (hp : handler.retry = some policy)

include hk hh hg hp

/-- A handler that only retries waits and retries, until its retries are used up. -/
theorem run_judge_of_retry (app : App) (effort : Effort) (u : World) :
    (judge app (runGoal app) site effort e).run u =
      if effort.retries < policy.count then
        (.ok (.retry (effort.first.getD e)), ((wait policy.delay).run u).2)
      else (.ok (.surrender (effort.first.getD e)), u) := by
  have hi : intervene app e = pure false := by rw [intervene, request?_of_recoverable hk]
  have hc : handler.retryCount = policy.count := by rw [ErrorHandler.retryCount, hp]; rfl
  have hd : handler.retryDelay = policy.delay := by rw [ErrorHandler.retryDelay, hp]; rfl
  simp only [judge, hk, ErrorKind.isFinal, hi, hh, hc, handle, hg, hd, hp]
  by_cases hr : effort.retries < policy.count
  · simp only [hr, decide_true, ↓reduceIte]
    rfl
  · simp only [hr, decide_false, Bool.false_eq_true, ↓reduceIte, Option.isNone_some,
      Bool.and_false]
    rfl

/-- A turn that ends in this failure leads to a retry, or hands the failure on. -/
theorem verdict_of_constant (app : App) (effort : Effort) (w : World)
    (hf : effort.first.getD e = e)
    (ha : (turnAt app site effort w).attempt.1 = .error e) :
    (effort.retries < policy.count ∧ (turnAt app site effort w).verdict =
      (.ok (.retry e), ((wait policy.delay).run (turnAt app site effort w).attempt.2).2)) ∨
    (policy.count ≤ effort.retries ∧ (turnAt app site effort w).verdict =
      (.ok (.surrender e), (turnAt app site effort w).attempt.2)) := by
  have hj := run_judge_of_retry hk hh hg hp app effort (turnAt app site effort w).attempt.2
  rw [hf] at hj
  have hv : (turnAt app site effort w).verdict = _ :=
    (run_turn_of_error (Prod.ext ha rfl)).trans hj
  by_cases hr : effort.retries < policy.count
  · rw [if_pos hr] at hv
    exact .inl ⟨hr, hv⟩
  · rw [if_neg hr] at hv
    exact .inr ⟨Nat.not_lt.mp hr, hv⟩

/-- A step that keeps failing in the same way is retried as often as its handler says, with a wait
before each retry; then its failure is reported. -/
theorem Turns.of_constant (h : Turns app site effort w turns r)
    (he : ∀ t ∈ turns, t.attempt.1 = .error e) (hf : effort.first.getD e = e)
    (hr : effort.retries ≤ policy.count) :
    ∃ retried last, turns = retried ++ [last] ∧
      effort.retries + retried.length = policy.count ∧
      (∀ t ∈ retried, t.verdict = (.ok (.retry e), ((wait policy.delay).run t.attempt.2).2)) ∧
      last.verdict = (.ok (.surrender e), last.attempt.2) ∧
      r = (surrender app (runGoal app) site e).run last.attempt.2 := by
  have verdict {effort : Effort} {w : World} := verdict_of_constant hk hh hg hp app effort w
  induction h with
  | settled h =>
    rcases verdict hf (he _ (List.mem_singleton_self _)) with ⟨-, hv⟩ | ⟨-, hv⟩
    · cases congrArg Prod.fst (h.symm.trans hv)
    · cases congrArg Prod.fst (h.symm.trans hv)
  | failed h =>
    rcases verdict hf (he _ (List.mem_singleton_self _)) with ⟨-, hv⟩ | ⟨-, hv⟩
    · cases congrArg Prod.fst (h.symm.trans hv)
    · cases congrArg Prod.fst (h.symm.trans hv)
  | @surrendered effort w v x h =>
    rcases verdict hf (he _ (List.mem_singleton_self _)) with ⟨-, hv⟩ | ⟨hle, hv⟩
    · cases congrArg Prod.fst (h.symm.trans hv)
    · have hx : x = e := by
        cases congrArg Prod.fst (h.symm.trans hv)
        rfl
      have hw : v = _ := congrArg Prod.snd (h.symm.trans hv)
      refine ⟨[], _, rfl, Nat.le_antisymm hr hle, ?_, hv, by rw [hx, hw]⟩
      exact fun t ht => absurd ht List.not_mem_nil
  | answered h rest ih =>
    rcases verdict hf (he _ List.mem_cons_self) with ⟨-, hv⟩ | ⟨-, hv⟩
    · cases congrArg Prod.fst (h.symm.trans hv)
    · cases congrArg Prod.fst (h.symm.trans hv)
  | @retried effort w v x turns r h rest ih =>
    rcases verdict hf (he _ List.mem_cons_self) with ⟨hlt, hv⟩ | ⟨-, hv⟩
    · obtain rfl : x = e := by
        cases congrArg Prod.fst (h.symm.trans hv)
        rfl
      obtain ⟨retried, last, rfl, hl, hall, hlast⟩ :=
        ih (fun t ht => he t (List.mem_cons_of_mem _ ht)) rfl hlt
      refine ⟨_ :: retried, last, rfl, ?_, ?_, hlast⟩
      · simp only [Effort.afterRetry] at hl
        rw [List.length_cons]
        omega
      · intro t ht
        rcases List.mem_cons.mp ht with rfl | ht
        · exact hv
        · exact hall t ht
    · cases congrArg Prod.fst (h.symm.trans hv)

end

/-- A recovery takes one turn and one more for each answer and each retry, of which there are no
more than a handler allows. A final failure ends it at once. What the error events get is the first
failure that no answer has undone; if the step always fails in the same way and its handler only
retries, that is the failure after as many retries as the handler says, each after its delay. -/
theorem recovery_within_budget (app : App) (site : Site) (w : World) :
    ∃ turns, Turns app site {} w turns ((attemptAll app site).run w) ∧
      turns.length ≤ 1 + turns.countP Turn.isAnswered + site.step.maxRetries ∧
      (∀ t ∈ turns, ∀ e u, t.attempt = (.error e, u) → e.kind.isFinal →
        turns.getLast? = some t ∧ (attemptAll app site).run w = (.error e, u)) ∧
      (∀ t ∈ turns, ∀ e v, t.verdict = (.ok (.surrender e), v) →
        turns.findSome? Turn.failure? = some e ∧
          (attemptAll app site).run w = (surrender app (runGoal app) site e).run v) ∧
      (∀ e handler policy, (∀ t ∈ turns, t.attempt.1 = .error e) → e.kind = .recoverable →
        site.step.handlerFor? e = some handler → handler.goalToCall = none →
        handler.retry = some policy →
        ∃ retried last, turns = retried ++ [last] ∧ retried.length = policy.count ∧
          (∀ t ∈ retried,
            t.verdict = (.ok (.retry e), ((wait policy.delay).run t.attempt.2).2)) ∧
          last.verdict = (.ok (.surrender e), last.attempt.2) ∧
          (attemptAll app site).run w =
            (surrender app (runGoal app) site e).run last.attempt.2) := by
  obtain ⟨turns, h⟩ := exists_turns app site {} w
  have hrun : (attemptAll app site).run w = (recovery app (runGoal app) site {}).run w :=
    perform_recovery app site {} w
  rw [hrun]
  refine ⟨turns, h, h.length_le, ?_, ?_, ?_⟩
  · exact fun t hm e u ht hf => h.of_isFinal hm ht hf
  · exact fun t hm e v ht => h.reported hm ht
  · intro e handler policy he hk hh hg hp
    obtain ⟨retried, last, ht, hl, hall, hlast⟩ :=
      h.of_constant hk hh hg hp he rfl (Nat.zero_le _)
    exact ⟨retried, last, ht, (Nat.zero_add _).symm.trans hl, hall, hlast⟩

end GoalScript.Run
