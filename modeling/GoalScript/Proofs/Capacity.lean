import GoalScript.Proofs.Traffic
import Mathlib.Algebra.Order.BigOperators.Group.Multiset
import Mathlib.Algebra.Order.Group.Nat
import Mathlib.Data.Multiset.Range

namespace GoalScript

variable {ε : Type}

namespace Visitor

def permits : Visitor ε → Nat
  | .looking | .missing | .placed | .made _ | .renting _ | .leaving => 1
  | _ => 0

def loans : Visitor ε → Nat
  | .renting _ => 1
  | _ => 0

/-- Places reserved for engines that are neither parked nor on loan yet. -/
def reserved : Visitor ε → Nat
  | .placed | .made _ | .warmPlaced _ | .warmMade .. => 1
  | _ => 0

def unmade : Visitor ε → Nat
  | .placed | .warmPlaced _ => 1
  | _ => 0

/-- Renters with a permit who have no engine on loan yet. -/
def admitted : Visitor ε → Nat
  | .looking | .missing | .placed | .made _ => 1
  | _ => 0

def engines : Visitor ε → Multiset ε
  | .made e | .renting e | .warmMade _ e => {e}
  | _ => 0

theorem card_engines (v : Visitor ε) : v.engines.card + v.unmade = v.loans + v.reserved := by
  cases v <;> rfl

/-- An engine on loan, or still to come, takes a permit. -/
theorem loans_add_admitted_le (v : Visitor ε) : v.loans + v.admitted ≤ v.permits := by
  cases v <;> simp [loans, admitted, permits]

end Visitor

namespace Permits

variable {p q : Permits} {t : Ticket} {g : Grant}

/-- Permits that nobody has taken yet, those set aside among them. -/
def left (p : Permits) : Nat := p.free + p.served.length

theorem left_release (p : Permits) : p.release.left = p.left + 1 := by
  unfold release
  split
  · simp only [left]
    omega
  · simp only [left, List.length_append, List.length_singleton]
    omega

/-- A permit that was set aside for a claim that is given up is free for others. -/
theorem left_cancel (p : Permits) (t : Ticket) : (p.cancel t).left = p.left := by
  unfold cancel
  split
  · rename_i served
    have member : t ∈ p.served := by simpa using served
    have erased := List.length_erase_add_one member
    rw [left_release]
    simp only [left]
    omega
  · rfl

/-- A claim takes a permit if it is granted. -/
theorem left_claim (h : p.claim t = (g, q)) :
    q.left + (if g = .granted then 1 else 0) = p.left := by
  unfold claim at h
  split at h
  · cases h
    exact left_cancel p t
  · split at h
    · rename_i served
      cases h
      have member : t ∈ p.served := by simpa using served
      have erased := List.length_erase_add_one member
      simp only [left, if_true]
      omega
    · split at h
      · cases h
        rfl
      · split at h
        · cases h
          simp only [left, if_true]
          omega
        · cases h
          rfl

end Permits

namespace Pool

variable {p q : Pool ε} {e : ε}

def engines (p : Pool ε) : Multiset ε := p.idle.map Parked.engine

@[simp]
theorem engines_park (p : Pool ε) (e : ε) (now : Nat) :
    (p.park e now).engines = p.engines + {e} := by
  simp [engines, park, ← Multiset.coe_add]

@[simp]
theorem engines_create (p : Pool ε) : p.create.engines = p.engines := rfl

theorem popIdle_cases (h : p.popIdle = some (e, q)) :
    ∃ parked, p.idle = q.idle ++ [parked] ∧ parked.engine = e ∧ q = { p with idle := q.idle } := by
  unfold popIdle at h
  split at h
  · rename_i parked last
    cases h
    exact ⟨parked, (List.dropLast_append_getLast? parked last).symm, rfl, rfl⟩
  · cases h

theorem engines_of_popIdle (h : p.popIdle = some (e, q)) : p.engines = q.engines + {e} := by
  obtain ⟨parked, idle, rfl, -⟩ := popIdle_cases h
  simp [engines, idle, ← Multiset.coe_add]

theorem reserve_cases (h : p.reserve = some q) :
    p.live < p.config.maxSize ∧ q = { p with live := p.live + 1 } := by
  unfold reserve at h
  split at h
  · rename_i room
    cases h
    exact ⟨room, rfl⟩
  · cases h

/-- An eviction splits the idle engines. -/
theorem expire_perm (timeout now removable : Nat) (idle : List (Parked ε)) :
    ((expire timeout now removable idle).1 ++ (expire timeout now removable idle).2).Perm idle := by
  induction idle generalizing removable with
  | nil => rfl
  | cons parked rest ih =>
    unfold expire
    split
    · exact (ih (removable - 1)).cons parked
    · exact List.perm_middle.trans ((ih removable).cons parked)

/-- What an eviction drops and what it keeps is what was idle. -/
theorem evict_idle (p : Pool ε) (now : Nat) :
    (p.expired now ++ (p.evict now).2.idle).Perm p.idle :=
  expire_perm _ _ _ _

theorem evict_live (p : Pool ε) (now : Nat) :
    (p.evict now).2.live = p.live - (p.expired now).length := rfl

end Pool

namespace Move

variable [Numbered ε] {fresh : Nat → ε} {p q : Pool ε} {v : Visitor ε} {v' : Option (Visitor ε)}

theorem config_eq (h : Move fresh p v q v') : q.config = p.config := by
  cases h with
  | find h =>
    obtain ⟨-, -, -, same⟩ := Pool.popIdle_cases h
    rw [same]
  | place h | warmPlace h =>
    obtain ⟨-, rfl⟩ := Pool.reserve_cases h
    rfl
  | _ => rfl

/-- A permit that is not in hand any more is in the pool again. -/
theorem permits_eq (h : Move fresh p v q v') :
    q.permits.left + v'.elim 0 Visitor.permits = p.permits.left + v.permits := by
  cases h with
  | grant h | queue h | refuse h => exact Permits.left_claim h
  | cancel t => exact Permits.left_cancel _ t
  | giveUp | leave => exact Permits.left_release _
  | find h =>
    obtain ⟨-, -, -, same⟩ := Pool.popIdle_cases h
    rw [same]
    rfl
  | place h | warmPlace h =>
    obtain ⟨-, rfl⟩ := Pool.reserve_cases h
    rfl
  | _ => rfl

/-- A place that is counted is that of an idle engine, of one on loan, or reserved. -/
theorem live_eq (h : Move fresh p v q v') :
    q.live + (p.idle.length + v.loans + v.reserved) =
      p.live + (q.idle.length + v'.elim 0 Visitor.loans + v'.elim 0 Visitor.reserved) := by
  cases h with
  | find h =>
    obtain ⟨parked, idle, -, same⟩ := Pool.popIdle_cases h
    rw [same, idle]
    simp [Visitor.loans, Visitor.reserved]
  | place h | warmPlace h =>
    obtain ⟨-, rfl⟩ := Pool.reserve_cases h
    simp [Visitor.loans, Visitor.reserved]
    omega
  | park | warmPark => simp [Pool.park, Visitor.loans, Visitor.reserved]
  | _ => simp [Pool.cancel, Pool.create, Visitor.loans, Visitor.reserved]

/-- There are never more places than the pool may have. -/
theorem live_le (h : Move fresh p v q v') (bounded : p.live ≤ p.config.maxSize) :
    q.live ≤ p.config.maxSize := by
  cases h with
  | find h =>
    obtain ⟨-, -, -, same⟩ := Pool.popIdle_cases h
    rw [same]
    exact bounded
  | place h | warmPlace h =>
    obtain ⟨room, rfl⟩ := Pool.reserve_cases h
    exact room
  | _ => exact bounded

/-- An engine that has been made is idle or in somebody's hands, and has the number of those made
before it. -/
theorem engines_eq (numbered : ∀ n, Numbered.number (fresh n) = n) (h : Move fresh p v q v') :
    (q.engines + v'.elim 0 Visitor.engines).map Numbered.number +
        Multiset.range p.created =
      (p.engines + v.engines).map Numbered.number + Multiset.range q.created := by
  cases h with
  | find h =>
    obtain ⟨-, -, -, same⟩ := Pool.popIdle_cases h
    have made : q.created = p.created := by rw [same]
    rw [Pool.engines_of_popIdle h, made]
    simp [Visitor.engines]
  | place h | warmPlace h =>
    obtain ⟨-, rfl⟩ := Pool.reserve_cases h
    simp [Pool.engines, Visitor.engines]
  | make | warmMake =>
    have next : p.create.created = p.created + 1 := rfl
    simp only [Pool.engines_create, next, Multiset.range_succ, Visitor.engines, Option.elim_some,
      Multiset.map_add, Multiset.map_singleton, numbered, add_zero, ← Multiset.singleton_add]
    rw [add_assoc]
  | use same | rebase same => simp [Visitor.engines, same]
  | park =>
    have made (e : ε) (now : Nat) : (p.park e now).created = p.created := rfl
    simp [Visitor.engines, Numbered.number_ready, made]
  | warmPark =>
    have made (e : ε) (now : Nat) : (p.park e now).created = p.created := rfl
    simp [Visitor.engines, made]
  | _ => simp [Pool.engines, Pool.cancel, Visitor.engines]

end Move

namespace Traffic

variable {fresh : Nat → ε} {config : PoolConfig} {s t : Traffic ε} {v : Visitor ε}
  {rest : Multiset (Visitor ε)}

/-- What those who are at the pool have of something, taken together. -/
def count (s : Traffic ε) (f : Visitor ε → Nat) : Nat := (s.visitors.map f).sum

/-- The engines that there are: idle ones, and those in somebody's hands. -/
def engines (s : Traffic ε) : Multiset ε := s.pool.engines + (s.visitors.map Visitor.engines).sum

theorem count_of_visitors (here : s.visitors = v ::ₘ rest) (f : Visitor ε → Nat) :
    s.count f = f v + (rest.map f).sum := by
  simp [count, here]

theorem engines_of_visitors (here : s.visitors = v ::ₘ rest) :
    s.engines = s.pool.engines + v.engines + (rest.map Visitor.engines).sum := by
  simp [engines, here, add_assoc]

/-- What somebody has who goes on, if anybody does. -/
theorem sum_map_toList {M : Type} [AddCommMonoid M] (f : Visitor ε → M) (v' : Option (Visitor ε)) :
    ((v'.toList : Multiset (Visitor ε)).map f).sum = v'.elim 0 f := by
  cases v' <;> simp

theorem count_add (s : Traffic ε) (f g : Visitor ε → Nat) :
    (s.count fun v => f v + g v) = s.count f + s.count g := Multiset.sum_map_add

theorem count_le (s : Traffic ε) {f g : Visitor ε → Nat} (h : ∀ v, f v ≤ g v) :
    s.count f ≤ s.count g :=
  Multiset.sum_map_le_sum_map f g fun v _ => h v

theorem card_engines (s : Traffic ε) :
    s.engines.card = s.pool.idle.length + s.count fun v => v.engines.card := by
  have held (visitors : Multiset (Visitor ε)) : (visitors.map Visitor.engines).sum.card =
      (visitors.map fun v => v.engines.card).sum := by
    induction visitors using Multiset.induction with
    | empty => rfl
    | cons v visitors ih => simp [ih]
  rw [engines, Multiset.card_add, held, Pool.engines, Multiset.coe_card, List.length_map, count]

variable [Numbered ε]

/-- The books are in balance: permits and places are all accounted for, and so are the engines that
have been made, by number. -/
structure Balanced (config : PoolConfig) (s : Traffic ε) : Prop where
  same : s.pool.config = config
  permits : s.pool.permits.left + s.count Visitor.permits = config.maxSize
  live : s.pool.live = s.pool.idle.length + s.count Visitor.loans + s.count Visitor.reserved
  live_le : s.pool.live ≤ config.maxSize
  engines : (s.engines + s.dropped).map Numbered.number = Multiset.range s.pool.created

theorem balanced_start (config : PoolConfig) : Balanced config (start config : Traffic ε) where
  same := rfl
  permits := by simp [start, Pool.start, Permits.left, count]
  live := by simp [start, Pool.start, count]
  live_le := Nat.zero_le _
  engines := by simp [start, Pool.start, Traffic.engines, Pool.engines]

/-- Whoever comes has nothing yet. -/
theorem Balanced.arrive (h : Balanced config s) {v : Visitor ε} (tickets : Nat)
    (permits : v.permits = 0) (loans : v.loans = 0) (reserved : v.reserved = 0)
    (engines : v.engines = 0) :
    Balanced config { s with visitors := v ::ₘ s.visitors, tickets } where
  same := h.same
  permits := by simpa [count, permits] using h.permits
  live := by simpa [count, loans, reserved] using h.live
  live_le := h.live_le
  engines := by simpa [Traffic.engines, engines] using h.engines

/-- One step of a visitor keeps the books in balance. -/
theorem Balanced.move (numbered : ∀ n, Numbered.number (fresh n) = n) (h : Balanced config s)
    (here : s.visitors = v ::ₘ rest) {q : Pool ε} {v' : Option (Visitor ε)}
    (m : Move fresh s.pool v q v') :
    Balanced config { s with pool := q, visitors := v'.toList + rest } where
  same := m.config_eq.trans h.same
  permits := by
    have before := h.permits
    have moved := m.permits_eq
    rw [count_of_visitors here] at before
    simp only [count, Multiset.map_add, Multiset.sum_add, sum_map_toList]
    omega
  live := by
    have before := h.live
    have moved := m.live_eq
    rw [count_of_visitors here, count_of_visitors here] at before
    simp only [count, Multiset.map_add, Multiset.sum_add, sum_map_toList]
    omega
  live_le := by
    have bounded := m.live_le
    rw [h.same] at bounded
    exact bounded h.live_le
  engines := by
    have before := h.engines
    have moved := m.engines_eq numbered
    rw [engines_of_visitors here] at before
    have after : Traffic.engines { s with pool := q, visitors := v'.toList + rest } =
        q.engines + v'.elim 0 Visitor.engines + (rest.map Visitor.engines).sum := by
      rw [Traffic.engines, Multiset.map_add, Multiset.sum_add, sum_map_toList, add_assoc]
    rw [Multiset.map_add, Multiset.map_add] at before
    rw [after, Multiset.map_add, Multiset.map_add]
    dsimp only
    apply add_left_cancel (a := (s.pool.engines + v.engines).map Numbered.number)
    refine Eq.trans ?_ moved
    rw [← before]
    ac_rfl

theorem Balanced.evict (h : Balanced config s) (now : Nat) :
    Balanced config { s with
      pool := (s.pool.evict now).2
      dropped := (s.pool.expired now).map Parked.engine + s.dropped
      evicting := true } where
  same := h.same
  permits := h.permits
  live := by
    have split := (s.pool.evict_idle now).length_eq
    have before := h.live
    have dropped := s.pool.evict_live now
    simp only [List.length_append] at split
    simp only [count] at before ⊢
    omega
  live_le := Nat.le_trans (Nat.sub_le _ _) h.live_le
  engines := by
    have split : (s.pool.expired now).map Parked.engine + (s.pool.evict now).2.engines =
        s.pool.engines := by
      rw [Pool.engines, Pool.engines, Multiset.coe_add, ← List.map_append]
      exact Multiset.coe_eq_coe.mpr ((s.pool.evict_idle now).map Parked.engine)
    have before := h.engines
    rw [Traffic.engines, ← split] at before
    refine Eq.trans (congrArg (Multiset.map Numbered.number) ?_) before
    simp only [Traffic.engines]
    ac_rfl

/-- Whatever happens next at the pool keeps the books in balance. -/
theorem Balanced.step (numbered : ∀ n, Numbered.number (fresh n) = n) (h : Balanced config s)
    (step : Step fresh s t) : Balanced config t := by
  cases step with
  | rent => exact h.arrive _ rfl rfl rfl rfl
  | prewarm count => exact h.arrive _ rfl rfl rfl rfl
  | move here m => exact h.move numbered here m
  | evict _ now => exact h.evict now
  | tearDown => exact { h with }
  | close => exact { h with }

/-- The books are in balance whatever a pool has come to. -/
theorem Reachable.balanced (numbered : ∀ n, Numbered.number (fresh n) = n)
    (h : Reachable config fresh s) : Balanced config s := by
  induction h with
  | refl => exact balanced_start config
  | tail _ step ih => exact ih.step numbered step

/-- Whatever renters, returns, prewarming and evictions do at a pool, step by step and in whatever
order: the places that are counted are those of idle engines, of engines on loan, and of engines
that are neither parked nor handed over yet. There are never more of them than the pool may have,
nor more engines on loan and renters with a permit. The engines made are those whose place is
counted and which have been made, and those that have been dropped. No engine is in two places, be
it among the idle ones, in somebody's hands or dropped. -/
theorem pool_keeps_its_books (config : PoolConfig) (fresh : Nat → ε)
    (numbered : ∀ n, Numbered.number (fresh n) = n) (s : Traffic ε)
    (h : Reachable config fresh s) :
    s.pool.live = s.pool.idle.length + s.count Visitor.loans + s.count Visitor.reserved ∧
      s.pool.live ≤ config.maxSize ∧
      s.count Visitor.loans + s.count Visitor.admitted ≤ config.maxSize ∧
      s.count Visitor.unmade ≤ s.pool.live ∧
      s.pool.created = s.pool.live - s.count Visitor.unmade + s.dropped.card ∧
      ((s.engines + s.dropped).map Numbered.number).Nodup := by
  have balanced := h.balanced numbered
  have live := balanced.live
  have made : s.engines.card + s.count Visitor.unmade = s.pool.live := by
    have held := s.count_add (fun v => v.engines.card) Visitor.unmade
    rw [funext Visitor.card_engines, count_add] at held
    rw [card_engines]
    omega
  have engines := congrArg Multiset.card balanced.engines
  rw [Multiset.card_map, Multiset.card_add, Multiset.card_range] at engines
  refine ⟨live, balanced.live_le, ?_, ?_, ?_, ?_⟩
  · have admitted := s.count_le Visitor.loans_add_admitted_le
    have permits := balanced.permits
    rw [count_add] at admitted
    omega
  · omega
  · omega
  · rw [balanced.engines]
    exact Multiset.nodup_range _

/-- A renter has come while the only place is reserved for an engine that is to be made. -/
theorem pool_keeps_its_books_while_prewarming :
    ∃ s : Traffic Engine, Reachable { maxSize := 1 } (fun n => .start n default false) s ∧
      s.visitors = {.looking, .warmPlaced 0} ∧ s.pool.live = 1 ∧
      s.pool.created = s.pool.live - s.count Visitor.unmade + s.dropped.card := by
  let fresh (n : Nat) : Engine := .start n default false
  let config : PoolConfig := { maxSize := 1 }
  let warm : Traffic Engine := { pool := .start config, visitors := {.warming 1} }
  let placed : Traffic Engine :=
    { pool := { Pool.start config with live := 1 }, visitors := {.warmPlaced 0} }
  let asking : Traffic Engine :=
    { placed with visitors := {.asking 0, .warmPlaced 0}, tickets := 1 }
  let looking : Traffic Engine :=
    { asking with
      pool := { placed.pool with permits := { free := 0 } }
      visitors := {.looking, .warmPlaced 0} }
  have come : Reachable config fresh warm := .single (.prewarm _ 1)
  have place : Step fresh warm placed := .goOn rfl (.warmPlace rfl)
  have ask : Step fresh placed asking := .rent _
  have look : Step fresh asking looking := .goOn rfl (.grant rfl)
  have reached : Reachable config fresh looking := ((come.tail place).tail ask).tail look
  have books := pool_keeps_its_books config fresh (fun _ => rfl) looking reached
  exact ⟨looking, reached, rfl, rfl, books.2.2.2.2.1⟩

end Traffic

end GoalScript
