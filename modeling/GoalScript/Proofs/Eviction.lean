import GoalScript.Proofs.Capacity

namespace GoalScript

variable {ε : Type}

namespace Pool

variable {p q : Pool ε} {before now : Nat}

/-- If the pool changes by an engine being parked, it is parked at this time. -/
def ParksAt (now : Nat) (p q : Pool ε) : Prop :=
  ∀ e since, q.idle = p.idle ++ [⟨e, since⟩] → since = now

theorem parksAt_of_idle (same : q.idle = p.idle) : ParksAt now p q := by
  intro e since parks
  simp [same] at parks

theorem parksAt_park (p : Pool ε) (e : ε) (now : Nat) : ParksAt now p (p.park e now) := by
  intro e' since parks
  have last : (⟨e, now⟩ : Parked ε) = ⟨e', since⟩ := by simpa [park] using parks
  exact (congrArg Parked.since last).symm

/-- The engine that is idle for longest comes first, and none has been parked after this time. -/
structure Ordered (now : Nat) (p : Pool ε) : Prop where
  sorted : p.idle.Pairwise fun a b => a.since ≤ b.since
  past : ∀ parked ∈ p.idle, parked.since ≤ now

theorem Ordered.of_sublist (h : Ordered before p) (later : before ≤ now)
    (fewer : q.idle.Sublist p.idle) : Ordered now q where
  sorted := h.sorted.sublist fewer
  past parked mem := Nat.le_trans (h.past parked (fewer.mem mem)) later

theorem Ordered.of_append (h : Ordered before p) (later : before ≤ now) {e : ε}
    (parks : q.idle = p.idle ++ [⟨e, now⟩]) : Ordered now q where
  sorted := by
    rw [parks]
    refine List.pairwise_append.mpr ⟨h.sorted, List.pairwise_singleton _ _, ?_⟩
    intro parked mem last isLast
    obtain rfl := List.mem_singleton.mp isLast
    exact Nat.le_trans (h.past parked mem) later
  past parked mem := by
    rw [parks] at mem
    rcases List.mem_append.mp mem with old | last
    · exact Nat.le_trans (h.past parked old) later
    · obtain rfl := List.mem_singleton.mp last
      exact Nat.le_refl _

def isOverdue (p : Pool ε) (now : Nat) (parked : Parked ε) : Bool :=
  1000 * p.config.idleTimeout ≤ now - parked.since

/-- How many engines an eviction drops: those idle for too long, if the pool can spare them. -/
def surplus (p : Pool ε) (now : Nat) : Nat :=
  min (p.live - p.config.minSize) (p.idle.countP (p.isOverdue now))

/-- Where the engine that is idle for longest comes first, those that are idle for too long are at
the front. -/
theorem expire_eq {timeout : Nat} {idle : List (Parked ε)}
    (sorted : idle.Pairwise fun a b => a.since ≤ b.since) (removable : Nat) :
    expire timeout now removable idle =
      let dropped := min removable (idle.countP fun parked => timeout ≤ now - parked.since)
      (idle.take dropped, idle.drop dropped) := by
  induction idle generalizing removable with
  | nil => simp [expire]
  | cons parked rest ih =>
    obtain ⟨first, later⟩ := List.pairwise_cons.mp sorted
    by_cases overdue : timeout ≤ now - parked.since
    · cases removable with
      | zero => simp [expire, ih later]
      | succ removable =>
        simp [expire, ih later, overdue, Nat.add_min_add_right]
    · -- Those behind it have been idle for no longer.
      have none : (rest.countP fun parked => timeout ≤ now - parked.since) = 0 := by
        refine List.countP_eq_zero.mpr fun other mem => ?_
        have after := first other mem
        simp only [decide_eq_true_eq]
        omega
      simp [expire, ih later, overdue, none]

/-- Only engines idle for too long are dropped. -/
theorem overdue_of_mem_expire {timeout removable : Nat} {idle : List (Parked ε)} {parked : Parked ε}
    (mem : parked ∈ (expire timeout now removable idle).1) : timeout ≤ now - parked.since := by
  induction idle generalizing removable with
  | nil => simp [expire] at mem
  | cons first rest ih =>
    unfold expire at mem
    split at mem
    · rename_i overdue
      simp only [Bool.and_eq_true, decide_eq_true_eq] at overdue
      rcases List.mem_cons.mp mem with rfl | later
      · exact overdue.2
      · exact ih later
    · exact ih mem

variable (h : Ordered before p)
include h

/-- An eviction drops the front of the list. -/
theorem Ordered.expired_eq (now : Nat) : p.expired now = p.idle.take (p.surplus now) := by
  rw [expired, expire_eq h.sorted]
  rfl

/-- What is behind the front stays. -/
theorem Ordered.idle_evict (now : Nat) :
    (p.evict now).2.idle = p.idle.drop (p.surplus now) := by
  change (expire _ _ _ _).2 = _
  rw [expire_eq h.sorted]
  rfl

theorem Ordered.length_expired (now : Nat) : (p.expired now).length = p.surplus now := by
  rw [h.expired_eq, List.length_take]
  exact Nat.min_eq_left (Nat.le_trans (Nat.min_le_right _ _) List.countP_le_length)

end Pool

namespace Traffic

variable [Numbered ε] {fresh : Nat → ε} {config : PoolConfig} {s t : Traffic ε} {before now : Nat}

/-- What a pool can come to by this time, if the clock does not run backwards. -/
inductive Timed (config : PoolConfig) (fresh : Nat → ε) : Nat → Traffic ε → Prop where
  | start (now : Nat) : Timed config fresh now (start config)
  | step {before now : Nat} {s t : Traffic ε} (h : Timed config fresh before s)
      (later : before ≤ now) (step : Step fresh s t) (parks : s.pool.ParksAt now t.pool) :
      Timed config fresh now t

theorem Timed.reachable (h : Timed config fresh now s) : Reachable config fresh s := by
  induction h with
  | start => exact .refl
  | step _ _ step _ ih => exact ih.tail step

/-- Idle engines come and go at the end of the list. -/
theorem idle_of_move {p q : Pool ε} {v : Visitor ε} {v' : Option (Visitor ε)}
    (h : Move fresh p v q v') :
    q.idle.Sublist p.idle ∨ ∃ e since, q.idle = p.idle ++ [⟨e, since⟩] := by
  cases h with
  | find h =>
    obtain ⟨parked, idle, -, -⟩ := Pool.popIdle_cases h
    rw [idle]
    exact .inl (List.sublist_append_left _ _)
  | place h | warmPlace h =>
    obtain ⟨-, rfl⟩ := Pool.reserve_cases h
    exact .inl (List.Sublist.refl _)
  | park | warmPark => exact .inr ⟨_, _, rfl⟩
  | _ => exact .inl (List.Sublist.refl _)

/-- The list stays in order whatever happens next, if nothing is parked with an earlier time. -/
theorem Step.ordered (h : s.pool.Ordered before) (later : before ≤ now) (step : Step fresh s t)
    (parks : s.pool.ParksAt now t.pool) : t.pool.Ordered now := by
  cases step with
  | move here m =>
    rcases idle_of_move m with fewer | ⟨e, since, parked⟩
    · exact h.of_sublist later fewer
    · obtain rfl := parks e since parked
      exact h.of_append later parked
  | evict _ now' =>
    refine h.of_sublist later ?_
    rw [h.idle_evict]
    exact List.drop_sublist _ _
  | _ => exact h.of_sublist later (List.Sublist.refl _)

/-- As long as the clock does not run backwards the list is in order. -/
theorem Timed.ordered (h : Timed config fresh now s) : s.pool.Ordered now := by
  induction h with
  | start => exact ⟨List.Pairwise.nil, List.forall_mem_nil _⟩
  | step _ later step parks ih => exact step.ordered ih later parks

def sweep (s : Traffic ε) (now : Nat) : Traffic ε :=
  { s with
    pool := (s.pool.evict now).2
    dropped := (s.pool.expired now).map Parked.engine + s.dropped
    evicting := true }

theorem Step.sweep (none : s.evicting = false) (now : Nat) : Step fresh s (s.sweep now) :=
  .evict none now

/-- An engine in somebody's hands is not among the idle ones. -/
theorem Balanced.number_ne (h : Balanced config s) {v : Visitor ε} {e : ε} {parked : Parked ε}
    (here : v ∈ s.visitors) (held : e ∈ v.engines) (idle : parked ∈ s.pool.idle) :
    Numbered.number e ≠ Numbered.number parked.engine := by
  have distinct : (s.engines.map Numbered.number).Nodup := by
    have nodup := Multiset.nodup_range s.pool.created
    rw [← h.engines, Multiset.map_add] at nodup
    exact (Multiset.nodup_add.mp nodup).1
  obtain ⟨rest, here⟩ := Multiset.exists_cons_of_mem here
  rw [engines_of_visitors here, Multiset.map_add, Multiset.map_add] at distinct
  obtain ⟨-, -, apart⟩ := Multiset.nodup_add.mp (Multiset.nodup_add.mp distinct).1
  have among : parked.engine ∈ s.pool.engines := List.mem_map_of_mem idle
  intro same
  exact Multiset.disjoint_left.mp apart (Multiset.mem_map_of_mem _ among)
    (same ▸ Multiset.mem_map_of_mem _ held)

/-- Whatever has been done at a pool while the clock did not run backwards: a pass that starts while
no other one runs drops as many engines as have been idle for too long, if the pool can spare them,
and otherwise as many as it can spare. They are those that have been idle for longest, and the
others stay in their order. No engine in somebody's hands is touched, so many places less are
counted, and the pool does not fall below its least size. -/
theorem evictions_are_exact (config : PoolConfig) (fresh : Nat → ε)
    (numbered : ∀ n, Numbered.number (fresh n) = n) (clock : Nat) (s : Traffic ε)
    (h : Timed config fresh clock s) (none : s.evicting = false) (now : Nat) :
    let dropped := s.pool.expired now
    let t := s.sweep now
    Step fresh s t ∧
      (s.pool.evict now).1 = dropped.length ∧
      dropped.length = min (s.pool.live - config.minSize)
        (s.pool.idle.countP fun parked => 1000 * config.idleTimeout ≤ now - parked.since) ∧
      s.pool.idle = dropped ++ t.pool.idle ∧
      (∀ gone ∈ dropped, 1000 * config.idleTimeout ≤ now - gone.since ∧
        ∀ kept ∈ t.pool.idle, gone.since ≤ kept.since) ∧
      t.pool.live + dropped.length = s.pool.live ∧
      min config.minSize s.pool.live ≤ t.pool.live ∧
      t.visitors = s.visitors ∧
      t.dropped = dropped.map Parked.engine + s.dropped ∧
      ∀ v ∈ s.visitors, ∀ e ∈ v.engines, ∀ gone ∈ dropped,
        Numbered.number e ≠ Numbered.number gone.engine := by
  intro dropped t
  have balanced := h.reachable.balanced numbered
  have ordered := h.ordered
  have split : s.pool.idle = dropped ++ t.pool.idle := by
    have taken : dropped = _ := ordered.expired_eq now
    have kept : t.pool.idle = _ := ordered.idle_evict now
    rw [taken, kept, List.take_append_drop]
  have count : dropped.length = min (s.pool.live - config.minSize)
      (s.pool.idle.countP fun parked => 1000 * config.idleTimeout ≤ now - parked.since) := by
    have length : dropped.length = s.pool.surplus now := ordered.length_expired now
    rw [length, Pool.surplus, ← balanced.same]
    rfl
  have spared : dropped.length ≤ s.pool.live - config.minSize := count ▸ Nat.min_le_left _ _
  have live : t.pool.live = s.pool.live - dropped.length := s.pool.evict_live now
  refine ⟨.sweep none now, rfl, count, split, fun gone mem => ⟨?_, fun kept later => ?_⟩, ?_, ?_,
    rfl, rfl, fun v here e held gone mem => ?_⟩
  · have overdue := Pool.overdue_of_mem_expire mem
    rwa [balanced.same] at overdue
  · have sorted := ordered.sorted
    rw [split] at sorted
    exact (List.pairwise_append.mp sorted).2.2 gone mem kept later
  · omega
  · omega
  · have idle : gone ∈ s.pool.idle := split ▸ List.mem_append_left _ mem
    exact balanced.number_ne here held idle

/-- Two engines have been made, the second of them late. When the first has been idle for a minute,
both could be spared, and the first is dropped. -/
theorem evictions_are_exact_of_two :
    let config : PoolConfig := { minSize := 0, maxSize := 2, idleTimeout := 60 }
    let fresh (n : Nat) : Engine := .start n default false
    ∃ s : Traffic Engine, Timed config fresh 40000 s ∧ s.evicting = false ∧
      s.pool.live - config.minSize = 2 ∧ (s.pool.evict 70000).1 = 1 ∧
      (s.sweep 70000).pool.idle = [⟨fresh 1, 40000⟩] := by
  intro config fresh
  let warming (pool : Pool Engine) (v : Visitor Engine) : Traffic Engine :=
    { pool, visitors := {v} }
  let empty : Pool Engine := .start config
  let one : Pool Engine := { empty with live := 1 }
  let parked : Pool Engine := { one with idle := [⟨fresh 0, 0⟩], created := 1 }
  let two : Pool Engine := { parked with live := 2 }
  have come : Timed config fresh 0 (warming empty (.warming 2)) :=
    .step (.start 0) (Nat.le_refl _) (.prewarm _ 2) (Pool.parksAt_of_idle rfl)
  have place : Timed config fresh 0 (warming one (.warmPlaced 1)) :=
    come.step (Nat.le_refl _) (.goOn rfl (.warmPlace rfl)) (Pool.parksAt_of_idle rfl)
  have make : Timed config fresh 0 (warming one.create (.warmMade 1 (fresh 0))) :=
    place.step (Nat.le_refl _) (.goOn rfl (.warmMake _ _)) (Pool.parksAt_of_idle rfl)
  have park : Timed config fresh 0 (warming parked (.warming 1)) :=
    make.step (Nat.le_refl _) (.goOn rfl (.warmPark _ _ _ 0)) (Pool.parksAt_park _ _ _)
  have again : Timed config fresh 0 (warming two (.warmPlaced 0)) :=
    park.step (Nat.le_refl _) (.goOn rfl (.warmPlace rfl)) (Pool.parksAt_of_idle rfl)
  have made : Timed config fresh 0 (warming two.create (.warmMade 0 (fresh 1))) :=
    again.step (Nat.le_refl _) (.goOn rfl (.warmMake _ _)) (Pool.parksAt_of_idle rfl)
  have late : Timed config fresh 40000 (warming (two.create.park (fresh 1) 40000) (.warming 0)) :=
    made.step (by decide) (.goOn rfl (.warmPark _ _ _ 40000)) (Pool.parksAt_park _ _ _)
  refine ⟨_, late, rfl, rfl, ?_, rfl⟩
  obtain ⟨-, dropped, count, -⟩ :=
    evictions_are_exact config fresh (fun _ => rfl) 40000 _ late rfl 70000
  exact dropped.trans count

end Traffic

end GoalScript
