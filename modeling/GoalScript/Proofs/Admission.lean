import GoalScript.Proofs.Capacity
import Mathlib.Logic.Function.Iterate

namespace GoalScript

variable {ε : Type}

namespace Visitor

/-- Has a permit, and neither an engine nor a place for one. -/
def Looks : Visitor ε → Prop
  | .looking | .missing => True
  | _ => False

/-- Has a place for an engine that is to be parked. -/
def Prewarms : Visitor ε → Prop
  | .warmPlaced _ | .warmMade .. => True
  | _ => False

/-- Whoever has a place has a permit, unless the place is for prewarming. -/
theorem loans_add_reserved_le {v : Visitor ε} (h : ¬ v.Prewarms) :
    v.loans + v.reserved ≤ v.permits := by
  cases v with
  | warmPlaced => exact absurd trivial h
  | warmMade => exact absurd trivial h
  | _ => simp [loans, reserved, permits]

theorem Looks.counts {v : Visitor ε} (h : v.Looks) :
    v.loans = 0 ∧ v.reserved = 0 ∧ v.permits = 1 := by
  cases v with
  | looking | missing => exact ⟨rfl, rfl, rfl⟩
  | _ => cases h

end Visitor

/-- What a renter with a permit does next, and what that makes of the pool. -/
def press (fresh : Nat → ε) : Pool ε × Visitor ε → Pool ε × Visitor ε
  | (p, .looking) =>
    match p.popIdle with
    | some (e, q) => (q, .renting e)
    | none => (p, .missing)
  | (p, .missing) =>
    match p.reserve with
    | some q => (q, .placed)
    | none => (p, .looking)
  | (p, .placed) => (p.create, .made (fresh p.created))
  | (p, .made e) => (p, .renting e)
  | (p, v) => (p, v)

/-- Renters with a permit can do nothing else, but give up. -/
theorem move_iff_press [Numbered ε] {fresh : Nat → ε} {p q : Pool ε} {v v' : Visitor ε}
    (admitted : v.admitted = 1) :
    Move fresh p v q (some v') ↔ press fresh (p, v) = (q, v') := by
  cases v with
  | looking =>
    constructor
    · intro h
      cases h with
      | find h => simp [press, h]
      | miss h => simp [press, h]
    · intro h
      cases idle : p.popIdle with
      | none =>
        simp only [press, idle] at h
        cases h
        exact .miss idle
      | some found =>
        simp only [press, idle] at h
        cases h
        exact .find idle
  | missing =>
    constructor
    · intro h
      cases h with
      | place h => simp [press, h]
      | full h => simp [press, h]
    · intro h
      cases room : p.reserve with
      | none =>
        simp only [press, room] at h
        cases h
        exact .full room
      | some q =>
        simp only [press, room] at h
        cases h
        exact .place room
  | placed =>
    constructor
    · intro h
      cases h
      rfl
    · intro h
      cases h
      exact .make p
  | made e =>
    constructor
    · intro h
      cases h
      rfl
    · intro h
      cases h
      exact .handOver p e
  | _ => cases admitted

namespace Pool

variable {p : Pool ε} {fresh : Nat → ε}

theorem popIdle_eq_none (h : p.idle = []) : p.popIdle = none := by simp [popIdle, h]

theorem exists_popIdle (h : p.idle ≠ []) : ∃ e q, p.popIdle = some (e, q) := by
  rw [popIdle, List.getLast?_eq_some_getLast h]
  exact ⟨_, _, rfl⟩

theorem reserve_eq_some (h : p.live < p.config.maxSize) :
    p.reserve = some { p with live := p.live + 1 } := if_pos h

theorem reserve_eq_none (h : ¬ p.live < p.config.maxSize) : p.reserve = none := if_neg h

/-- An idle engine or room for a new one is all that it takes. -/
theorem exists_obtain (h : p.idle ≠ [] ∨ p.live < p.config.maxSize) :
    ∃ e q, p.obtain fresh = some (e, q) := by
  by_cases idle : p.idle = []
  · have room : p.live < p.config.maxSize := h.resolve_left fun some => some idle
    rw [obtain, popIdle_eq_none idle, reserve_eq_some room]
    exact ⟨_, _, rfl⟩
  · obtain ⟨e, q, found⟩ := exists_popIdle idle
    exact ⟨e, q, by rw [obtain, found]⟩

end Pool

/-- A renter with a permit who has a place has an engine two steps later. -/
theorem press_placed (fresh : Nat → ε) (p : Pool ε) :
    (press fresh)^[2] (p, .placed) = (p.create, .renting (fresh p.created)) := rfl

/-- One pass through the loop in which a renter looks for an engine and reserves a place. -/
theorem press_looking (fresh : Nat → ε) (p : Pool ε)
    (h : p.idle ≠ [] ∨ p.live < p.config.maxSize) :
    ∃ n ≤ 4, ∃ e q, p.obtain fresh = some (e, q) ∧
      (press fresh)^[n] (p, .looking) = (q, .renting e) := by
  by_cases idle : p.idle = []
  · have room : p.live < p.config.maxSize := h.resolve_left fun some => some idle
    have missed : press fresh (p, .looking) = (p, .missing) := by
      simp [press, Pool.popIdle_eq_none idle]
    have placed : press fresh (p, .missing) = ({ p with live := p.live + 1 }, .placed) := by
      simp [press, Pool.reserve_eq_some room]
    refine ⟨4, Nat.le_refl 4, fresh p.created, { p with live := p.live + 1 }.create, ?_, ?_⟩
    · rw [Pool.obtain, Pool.popIdle_eq_none idle, Pool.reserve_eq_some room]
      rfl
    · rw [Function.iterate_succ_apply, missed, Function.iterate_succ_apply, placed]
      exact press_placed fresh _
  · obtain ⟨e, q, found⟩ := Pool.exists_popIdle idle
    refine ⟨1, by omega, e, q, ?_, ?_⟩
    · rw [Pool.obtain, found]
    · simp [press, found]

/-- A renter who has not found an idle engine comes to one all the same, by a place for a new one or
by looking again. -/
theorem press_missing (fresh : Nat → ε) (p : Pool ε)
    (h : p.idle ≠ [] ∨ p.live < p.config.maxSize) :
    ∃ n ≤ 5, ∃ e q, (press fresh)^[n] (p, .missing) = (q, .renting e) := by
  by_cases room : p.live < p.config.maxSize
  · have placed : press fresh (p, .missing) = ({ p with live := p.live + 1 }, .placed) := by
      simp [press, Pool.reserve_eq_some room]
    refine ⟨3, by omega, fresh p.created, { p with live := p.live + 1 }.create, ?_⟩
    rw [Function.iterate_succ_apply, placed]
    exact press_placed fresh _
  · have again : press fresh (p, .missing) = (p, .looking) := by
      simp [press, Pool.reserve_eq_none room]
    obtain ⟨n, few, e, q, -, found⟩ := press_looking fresh p h
    refine ⟨n + 1, by omega, e, q, ?_⟩
    rw [Function.iterate_succ_apply, again]
    exact found

namespace Traffic

variable [Numbered ε] {fresh : Nat → ε} {config : PoolConfig} {s : Traffic ε} {v : Visitor ε}
  {rest : Multiset (Visitor ε)} {q : Pool ε} {e : ε}

/-- Were every place taken by an engine on loan or to be handed over, there would be as many renters
with a permit as there are permits, and the one who looks for an engine besides. -/
theorem Balanced.room (h : Balanced config s) (here : v ∈ s.visitors) (looks : v.Looks)
    (settled : ∀ w ∈ s.visitors, ¬ w.Prewarms) :
    s.pool.idle ≠ [] ∨ s.pool.live < config.maxSize := by
  by_cases idle : s.pool.idle = []
  · right
    obtain ⟨rest, visitors⟩ := Multiset.exists_cons_of_mem here
    obtain ⟨loans, reserved, permit⟩ := looks.counts
    have others : (rest.map Visitor.loans).sum + (rest.map Visitor.reserved).sum ≤
        (rest.map Visitor.permits).sum := by
      rw [← Multiset.sum_map_add]
      apply Multiset.sum_map_le_sum_map
      intro w member
      apply Visitor.loans_add_reserved_le
      apply settled
      rw [visitors]
      exact Multiset.mem_cons_of_mem member
    have live := h.live
    have permits := h.permits
    rw [idle, List.length_nil, count_of_visitors visitors, count_of_visitors visitors, loans,
      reserved] at live
    rw [count_of_visitors visitors, permit] at permits
    omega
  · exact .inl idle

/-- Whatever renters, returns, prewarming and evictions have done at a pool, while no place is
reserved for prewarming: a renter with a permit who is looking for an engine finds the pool with one
idle or with room for one, so that a pass through the loop would get it; and a renter with a permit
has an engine after a few steps of its own, wherever it stands. -/
theorem renters_with_permits_are_served (config : PoolConfig) (fresh : Nat → ε)
    (numbered : ∀ n, Numbered.number (fresh n) = n) (s : Traffic ε)
    (h : Reachable config fresh s) (v : Visitor ε) (here : v ∈ s.visitors)
    (settled : ∀ w ∈ s.visitors, ¬ w.Prewarms) :
    (v.Looks → (s.pool.idle ≠ [] ∨ s.pool.live < config.maxSize) ∧
      ∃ e q, s.pool.obtain fresh = some (e, q)) ∧
    (v.admitted = 1 → ∃ n ≤ 5, ∃ e q, (press fresh)^[n] (s.pool, v) = (q, .renting e)) := by
  have balanced := h.balanced numbered
  have room (looks : v.Looks) : s.pool.idle ≠ [] ∨ s.pool.live < s.pool.config.maxSize := by
    rw [balanced.same]
    exact balanced.room here looks settled
  constructor
  · intro looks
    exact ⟨balanced.room here looks settled, Pool.exists_obtain (room looks)⟩
  · intro admitted
    cases v with
    | looking =>
      obtain ⟨n, few, e, q, -, found⟩ := press_looking fresh s.pool (room trivial)
      exact ⟨n, by omega, e, q, found⟩
    | missing => exact press_missing fresh s.pool (room trivial)
    | placed => exact ⟨2, by omega, _, _, press_placed fresh s.pool⟩
    | made e => exact ⟨1, by omega, e, s.pool, rfl⟩
    | _ => cases admitted

/-- The one place is that of an idle engine, and a renter is about to look for it. -/
theorem renters_with_permits_are_served_warm :
    ∃ s : Traffic Engine, Reachable { maxSize := 1 } (fun n => .start n default false) s ∧
      s.visitors = {.looking} ∧ s.pool.live = 1 ∧
      ∃ n ≤ 5, ∃ e q, (press fun n => .start n default false)^[n] (s.pool, .looking) =
        (q, .renting e) := by
  let fresh (n : Nat) : Engine := .start n default false
  let config : PoolConfig := { maxSize := 1 }
  let warm : Traffic Engine := { pool := .start config, visitors := {.warming 1} }
  let warmed : Traffic Engine := { pool := ((Pool.start config).prewarm fresh 0 1).2 }
  let asking : Traffic Engine := { warmed with visitors := {.asking 0}, tickets := 1 }
  let looking : Traffic Engine :=
    { asking with
      pool := { warmed.pool with permits := { free := 0 } }
      visitors := {.looking} }
  have come : Reachable config fresh warm := .single (.prewarm _ 1)
  have make : Relation.ReflTransGen (Step fresh) warm warmed := runs_prewarm 0 1 rfl
  have ask : Step fresh warmed asking := .rent _
  have look : Step fresh asking looking := .goOn rfl (.grant rfl)
  have reached : Reachable config fresh looking := ((come.trans make).tail ask).tail look
  have settled : ∀ w ∈ looking.visitors, ¬ w.Prewarms := by
    intro w member
    rw [Multiset.mem_singleton.mp member]
    exact id
  have served := renters_with_permits_are_served config fresh (fun _ => rfl) looking reached
    .looking (Multiset.mem_singleton_self _) settled
  exact ⟨looking, reached, rfl, rfl, served.2 rfl⟩

/-- A renter with a permit and no engine yet may have the last place for itself: nobody prewarms,
returns or evicts, and the pool is full without an idle engine. -/
theorem renters_with_places_fill_the_pool :
    ∃ s : Traffic Engine, Reachable { maxSize := 1 } (fun n => .start n default false) s ∧
      s.visitors = {.placed} ∧ (Visitor.placed : Visitor Engine).admitted = 1 ∧
      s.evicting = false ∧ ¬ (s.pool.idle ≠ [] ∨ s.pool.live < 1) := by
  let fresh (n : Nat) : Engine := .start n default false
  let asking : Traffic Engine :=
    { pool := .start { maxSize := 1 }, visitors := {.asking 0}, tickets := 1 }
  let admitted : Pool Engine := { asking.pool with permits := { free := 0 } }
  let placed : Traffic Engine :=
    { asking with pool := { admitted with live := 1 }, visitors := {.placed} }
  have come : Step fresh (.start { maxSize := 1 }) asking := .rent _
  have look : Step fresh asking { asking with pool := admitted, visitors := {.looking} } :=
    .goOn rfl (.grant rfl)
  have miss : Step fresh { asking with pool := admitted, visitors := {.looking} }
      { asking with pool := admitted, visitors := {.missing} } := .goOn rfl (.miss rfl)
  have place : Step fresh { asking with pool := admitted, visitors := {.missing} } placed :=
    .goOn rfl (.place rfl)
  have reached : Reachable { maxSize := 1 } fresh placed :=
    (((Relation.ReflTransGen.single come).tail look).tail miss).tail place
  exact ⟨placed, reached, rfl, rfl, rfl, by decide⟩

/-- A renter with a permit presses on while nobody comes between. -/
theorem runs_press (n : Nat) (here : s.visitors = v ::ₘ rest)
    (h : (press fresh)^[n] (s.pool, v) = (q, .renting e)) :
    Relation.ReflTransGen (Step fresh) s { s with pool := q, visitors := .renting e ::ₘ rest } := by
  induction n generalizing s v with
  | zero =>
    cases h
    rw [← here]
  | succ n ih =>
    rw [Function.iterate_succ_apply] at h
    by_cases admitted : v.admitted = 1
    · cases pressed : press fresh (s.pool, v) with
      | mk q' v' =>
        rw [pressed] at h
        have step := Step.goOn here ((move_iff_press admitted).mpr pressed)
        exact .head step (ih rfl h)
    · have idle : press fresh (s.pool, v) = (s.pool, v) := by
        cases v with
        | looking | missing | placed | made => exact absurd rfl admitted
        | _ => rfl
      rw [idle] at h
      exact ih here h

def landing (t : Ticket) : Rental ε → Option (Visitor ε)
  | .engine e => some (.renting e)
  | .waiting => some (.asking t)
  | .closed => none

/-- A claim that is carried out at one go, while no place is reserved for prewarming, is a run of
the steps of one renter: a permit that is granted is never put back for want of an engine. -/
theorem Reachable.runs_rent (numbered : ∀ n, Numbered.number (fresh n) = n)
    (h : Reachable config fresh s) {t : Ticket} (here : s.visitors = .asking t ::ₘ rest)
    (settled : ∀ w ∈ rest, ¬ w.Prewarms) :
    Relation.ReflTransGen (Step fresh) s { s with
      pool := (s.pool.rent t fresh).2
      visitors := (landing t (s.pool.rent t fresh).1).toList + rest } := by
  unfold Pool.rent
  cases claimed : s.pool.permits.claim t with | mk grant permits =>
  cases grant with
  | refused => exact .single (.move here (.refuse claimed))
  | queued => exact .single (.move here (.queue claimed))
  | granted =>
    have grant : Move fresh s.pool (.asking t) { s.pool with permits } (some .looking) :=
      .grant claimed
    have looking := Step.goOn here grant
    have balanced := Reachable.balanced numbered (h.tail looking)
    have room := balanced.room (Multiset.mem_cons_self _ _) trivial (by
      intro w member
      rcases Multiset.mem_cons.mp member with rfl | other
      · exact id
      · exact settled w other)
    rw [← balanced.same] at room
    obtain ⟨n, -, e, q, obtained, found⟩ := press_looking fresh _ room
    dsimp only at obtained ⊢
    rw [obtained]
    exact .head looking (runs_press n rfl found)

end Traffic

end GoalScript
