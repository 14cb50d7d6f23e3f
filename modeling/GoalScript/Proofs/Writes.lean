import GoalScript.Proofs.Tables
import GoalScript.Registry
import Mathlib.Data.List.Forall2

namespace GoalScript

theorem Resolved.bind_eq_ok {α β : Type} {r : Resolved α} {f : α → Resolved β} {b : β} :
    (r >>= f) = .ok b ↔ ∃ a, r = .ok a ∧ f a = .ok b := by
  cases r with
  | error e => simp [bind, Except.bind]
  | ok a => simp [bind, Except.bind]

theorem Resolved.bind_congr {α β : Type} {r : Resolved α} {f g : α → Resolved β}
    (h : ∀ a, r = .ok a → f a = g a) : r >>= f = r >>= g := by
  cases r with
  | error e => rfl
  | ok a => exact h a rfl

theorem Resolved.map_eq_ok {α β : Type} {r : Resolved α} {f : α → β} {b : β} :
    r.map f = .ok b ↔ ∃ a, r = .ok a ∧ f a = b := by
  cases r with
  | error e => simp [Except.map]
  | ok a => simp [Except.map]

theorem Resolved.exists_of_map {α β : Type} {r : Resolved α} {f : α → β} {b : β}
    (h : r.toOption.map f = some b) : ∃ a, r = .ok a ∧ f a = b := by
  cases r with
  | error e => cases h
  | ok a => exact ⟨a, rfl, Option.some.inj h⟩

theorem Resolved.mapM_eq_ok_iff {α β : Type} {f : α → Resolved β} {l : List α} {found : List β} :
    l.mapM f = .ok found ↔ List.Forall₂ (fun a b => f a = .ok b) l found := by
  induction l generalizing found with
  | nil => cases found <;> simp [pure, Except.pure]
  | cons a l ih =>
    rw [List.mapM_cons]
    constructor
    · intro all
      obtain ⟨b, first, all⟩ := bind_eq_ok.mp all
      obtain ⟨others, rest, all⟩ := bind_eq_ok.mp all
      cases all
      exact .cons first (ih.mp rest)
    · intro all
      cases all with
      | cons first rest =>
        rw [first, ih.mpr rest]
        rfl

theorem Resolved.mapM_congr {α β : Type} {f g : α → Resolved β} {l : List α}
    (h : ∀ a ∈ l, f a = g a) : l.mapM f = l.mapM g := by
  induction l with
  | nil => rfl
  | cons a l ih =>
    rw [List.mapM_cons, List.mapM_cons, h a List.mem_cons_self,
      ih fun b mem => h b (List.mem_cons_of_mem _ mem)]

/-- The first failure is that of the list. -/
theorem Resolved.mapM_of_error {α β : Type} {f : α → Resolved β} {earlier later : List α} {a : α}
    {e : MemoryError} (succeed : ∀ b ∈ earlier, ∃ v, f b = .ok v) (fails : f a = .error e) :
    (earlier ++ a :: later).mapM f = .error e := by
  induction earlier with
  | nil =>
    rw [List.nil_append, List.mapM_cons, fails]
    rfl
  | cons b earlier ih =>
    obtain ⟨⟨v, first⟩, others⟩ := List.forall_mem_cons.mp succeed
    rw [List.cons_append, List.mapM_cons, first, ih others]
    rfl

namespace Store

/-- The relation holds between a store and what each of the changes that writes consist of makes of
it, and from the first to the last of several. -/
structure Allows (R : Store → Store → Prop) : Prop where
  refl (s : Store) : R s s
  trans {s t u : Store} (h : R s t) (k : R t u) : R s u
  queue (s : Store) (v : Variable) (type : EventType) (value : Value) :
    R s (s.queue v type value)
  setInScope (s : Store) (key : String) (v : Variable) (scope : Scope) :
    R s (s.setInScope key v scope)
  setting (s : Store) (name : String) (value : Json) :
    R s { s with shared := { s.shared with
      settings := s.shared.settings.set Settings.appOwner name value } }

namespace Allows

variable {R : Store → Store → Prop} {s t : Store} {expr : String} {v : Value}

theorem writeSetting (hR : Allows R) {plan : Plan} (h : s.writeSetting plan v = .ok t) :
    R s t := by
  unfold Store.writeSetting at h
  split at h
  · cases h
    exact hR.setting s _ _
  · cases h

theorem writeVariable (hR : Allows R) {plan : Plan} {scope : Scope}
    (h : s.writeVariable plan v scope = .ok t) : R s t := by
  unfold Store.writeVariable writeVariableBy at h
  dsimp only at h
  split at h
  · cases h
    exact hR.trans (hR.queue s _ _ _) (hR.setInScope _ _ _ _)
  · obtain ⟨places, _, h⟩ := Resolved.bind_eq_ok.mp h
    obtain ⟨new, _, h⟩ := Resolved.bind_eq_ok.mp h
    cases h
    exact hR.trans (hR.queue s _ _ _) (hR.setInScope _ _ _ _)

theorem writeTo (hR : Allows R) {scope : Scope} (h : s.writeTo expr v scope = .ok t) :
    R s t := by
  unfold Store.writeTo writeToBy at h
  obtain ⟨plan, _, h⟩ := Resolved.bind_eq_ok.mp h
  dsimp only at h
  split at h
  · cases h
  · split at h
    · exact hR.writeSetting h
    · split at h
      · cases h
      · exact hR.writeVariable h

/-- A put is made of the changes that are allowed. -/
theorem put (hR : Allows R) (h : s.put expr v = .ok t) : R s t := hR.writeTo h

theorem putShared (hR : Allows R) (h : s.putShared expr v = .ok t) : R s t := hR.writeTo h

/-- So is a removal. -/
theorem remove (hR : Allows R) (h : s.remove expr = .ok t) : R s t := by
  unfold Store.remove removeBy at h
  obtain ⟨plan, _, h⟩ := Resolved.bind_eq_ok.mp h
  dsimp only at h
  split at h
  · cases h
    exact hR.refl s
  · split at h
    · cases h
      exact hR.trans (hR.queue s _ _ _) (hR.setInScope _ _ _ _)
    · obtain ⟨places, _, h⟩ := Resolved.bind_eq_ok.mp h
      cases h
      exact hR.trans (hR.queue s _ _ _) (hR.setInScope _ _ _ _)

theorem subscribe (hR : Allows R) (s : Store) (expr : String) (sub : Subscription) :
    R s (s.subscribe expr sub) := hR.setInScope _ _ _ _

end Allows

end Store

def Entry.IsRemark : Entry → Prop
  | .waited _ => True
  | .noted _ _ => True
  | _ => False

namespace Surroundings

def Remarks (s t : Surroundings) : Prop :=
  ∃ remarks, t.journal = remarks ++ s.journal ∧ ∀ entry ∈ remarks, entry.IsRemark

theorem remarks_of_eq {s t : Surroundings} (h : t.journal = s.journal) : s.Remarks t :=
  ⟨[], h, fun _ he => absurd he List.not_mem_nil⟩

theorem Remarks.trans {s t u : Surroundings} (h : s.Remarks t) (k : t.Remarks u) :
    s.Remarks u := by
  obtain ⟨first, hf, old⟩ := h
  obtain ⟨second, hs, new⟩ := k
  refine ⟨second ++ first, by rw [hs, hf, List.append_assoc], fun entry he => ?_⟩
  exact (List.mem_append.mp he).elim (new entry) (old entry)

end Surroundings

namespace Call

variable {α β : Type} {R : Store → Store → Prop}

/-- Whatever it is called for, the function leaves the context alone, relates the stores and adds
nothing but remarks to the journal. -/
def Within (R : Store → Store → Prop) (c : Call α) : Prop :=
  ∀ (site : Site) (s : Surroundings),
    ((c site).run s).2.context = s.context ∧ R s.store ((c site).run s).2.store ∧
      s.Remarks ((c site).run s).2

theorem run_bind (c : Call α) (f : α → Call β) (site : Site) (s : Surroundings) :
    ((c >>= f) site).run s = match (c site).run s with
      | (.ok a, t) => (f a site).run t
      | (.error e, t) => (.error e, t) := by
  change ((c site).run >>= ExceptT.bindCont fun a => f a site) s = _
  simp only [bind, StateT.bind]
  rcases (c site).run s with ⟨result, t⟩
  cases result <;> rfl

theorem run_update (f : Store → Except MemoryError Store) (site : Site) (s : Surroundings) :
    ((update f) site).run s = match f s.store with
      | .ok t => (.ok (), { s with store := t })
      | .error e => (.error (.failed (.memory e)), s) := by
  have hg : (getStore site).run s = (.ok s.store, s) := rfl
  simp only [update, run_bind, hg]
  cases f s.store <;> rfl

section

variable (hR : Store.Allows R)

include hR

theorem within_of_same {c : Call α}
    (h : ∀ (site : Site) (s : Surroundings), ((c site).run s).2 = s) : c.Within R := by
  intro site s
  rw [h site s]
  exact ⟨rfl, hR.refl _, Surroundings.remarks_of_eq rfl⟩

theorem within_pure (a : α) : (pure a : Call α).Within R := within_of_same hR fun _ _ => rfl

theorem within_throw (e : Halt) : (throw e : Call α).Within R :=
  within_of_same hR fun _ _ => rfl

theorem within_get : (get : Call Surroundings).Within R := within_of_same hR fun _ _ => rfl

theorem within_read : (read : Call Site).Within R := within_of_same hR fun _ _ => rfl

theorem Within.bind {c : Call α} {f : α → Call β} (hc : c.Within R)
    (hf : ∀ a, (f a).Within R) : (c >>= f).Within R := by
  intro site s
  have h := hc site s
  rw [run_bind]
  rcases hr : (c site).run s with ⟨result, t⟩
  rw [hr] at h
  cases result with
  | error e => exact h
  | ok a =>
    have k := hf a site t
    exact ⟨k.1.trans h.1, hR.trans h.2.1 k.2.1, h.2.2.trans k.2.2⟩

theorem within_ofMemory (r : Except MemoryError α) : (ofMemory r).Within R := by
  cases r with
  | ok a => exact within_pure hR a
  | error e => exact within_throw hR _

theorem within_getStore : getStore.Within R := (within_get hR).bind hR fun _ => within_pure hR _

theorem within_update {f : Store → Except MemoryError Store}
    (hf : ∀ s t, f s = .ok t → R s t) : (update f).Within R := by
  intro site s
  rw [run_update]
  cases h : f s.store with
  | error e => exact ⟨rfl, hR.refl _, Surroundings.remarks_of_eq rfl⟩
  | ok t => exact ⟨rfl, hf _ _ h, Surroundings.remarks_of_eq rfl⟩

theorem within_getValue (expr : String) : (getValue expr).Within R :=
  (within_getStore hR).bind hR fun _ => within_ofMemory hR _

theorem within_parameter? (name : String) : (parameter? name).Within R :=
  (within_read hR).bind hR fun _ => within_pure hR _

theorem within_optional (name : String) : (optional name).Within R := by
  refine (within_parameter? hR name).bind hR fun json => ?_
  cases json with
  | none => exact within_pure hR _
  | some json =>
    refine (within_getStore hR).bind hR fun _ => ?_
    exact (within_ofMemory hR _).bind hR fun _ => within_pure hR _

theorem within_required (name : String) : (required name).Within R := by
  refine (within_optional hR name).bind hR fun v => ?_
  cases v with
  | none => exact (within_read hR).bind hR fun _ => within_throw hR _
  | some v => exact within_pure hR v

theorem within_raw (name : String) : (raw name).Within R := by
  refine (within_parameter? hR name).bind hR fun json => ?_
  rcases json with _ | json
  · exact (within_required hR name).bind hR fun _ => within_pure hR _
  · cases json <;> exact within_pure hR _

theorem within_rawTable (name : String) : (rawTable name).Within R := by
  refine (within_parameter? hR name).bind hR fun json => ?_
  rcases json with _ | json
  · exact within_pure hR _
  · cases json <;> exact within_pure hR _

theorem within_variableName (name : String) : (variableName name).Within R :=
  (within_raw hR name).bind hR fun _ => within_pure hR _

/-- A wait moves the clock and nothing else. -/
theorem within_wait (ms : Nat) : (wait ms).Within R := by
  intro site s
  have hg : ((get : Call Surroundings) site).run s = (.ok s, s) := rfl
  have waited (t : Surroundings) (n : Nat) (h : t.journal = .waited n :: s.journal) :
      s.Remarks t := ⟨[.waited n], h, fun _ he => List.mem_singleton.mp he ▸ trivial⟩
  simp only [wait, run_bind, hg]
  split
  · exact ⟨rfl, hR.refl _, Surroundings.remarks_of_eq rfl⟩
  · cases s.deadline with
    | none => exact ⟨rfl, hR.refl _, waited _ _ rfl⟩
    | some deadline =>
      dsimp only
      split <;> exact ⟨rfl, hR.refl _, waited _ _ rfl⟩

end

end Call

namespace Builtin

open Call

variable {R : Store → Store → Prop} (hR : Store.Allows R)

include hR

theorem within_eventType (text : String) : (eventType text).Within R := by
  unfold eventType
  split
  · exact within_pure hR _
  · exact within_throw hR _

theorem within_subscription : subscription.Within R := by
  refine (within_required hR _).bind hR fun _ => (within_eventType hR _).bind hR fun _ => ?_
  refine (within_required hR _).bind hR fun _ => (within_optional hR _).bind hR fun _ => ?_
  refine (within_read hR).bind hR fun _ => (within_rawTable hR _).bind hR fun _ => ?_
  exact within_pure hR _

theorem within_thrown : thrown.Within R := by
  refine (within_required hR _).bind hR fun _ => (within_optional hR _).bind hR fun _ => ?_
  exact (within_optional hR _).bind hR fun _ => within_pure hR _

theorem within_variableCall (function : String) : (variableCall function).Within R := by
  unfold variableCall
  split
  · refine (within_variableName hR _).bind hR fun _ => (within_optional hR _).bind hR fun _ => ?_
    exact (within_update hR fun _ _ => hR.put).bind hR fun _ => within_pure hR _
  · refine (within_variableName hR _).bind hR fun _ => (within_optional hR _).bind hR fun _ => ?_
    exact (within_update hR fun _ _ => hR.putShared).bind hR fun _ => within_pure hR _
  · refine (within_variableName hR _).bind hR fun _ => (within_getValue hR _).bind hR fun _ => ?_
    exact within_pure hR _
  · refine (within_variableName hR _).bind hR fun _ => ?_
    exact (within_update hR fun _ _ => hR.remove).bind hR fun _ => within_pure hR _
  · refine (within_variableName hR _).bind hR fun _ => (within_required hR _).bind hR fun _ => ?_
    refine (within_getValue hR _).bind hR fun _ => ?_
    exact (within_update hR fun _ _ => hR.put).bind hR fun _ => within_pure hR _
  · refine (within_variableName hR _).bind hR fun name =>
      (within_subscription hR).bind hR fun sub => ?_
    refine (within_update hR fun s t h => ?_).bind hR fun _ => within_pure hR _
    cases h
    exact hR.subscribe s name sub
  · exact within_throw hR _

theorem within_goalCall (function : String) : (goalCall function).Within R := by
  unfold goalCall
  split
  · refine (within_required hR _).bind hR fun _ => (within_rawTable hR _).bind hR fun _ => ?_
    exact within_pure hR _
  · exact (within_optional hR _).bind hR fun _ => within_pure hR _
  · exact (within_optional hR _).bind hR fun _ => within_pure hR _
  · exact (within_thrown hR).bind hR fun _ => within_throw hR _
  · exact within_throw hR _

theorem within_conditionCall (function : String) : (conditionCall function).Within R := by
  unfold conditionCall
  split
  · exact (within_required hR _).bind hR fun _ => within_pure hR _
  · exact within_throw hR _

theorem within_timeCall (function : String) : (timeCall function).Within R := by
  unfold timeCall
  split
  · refine (within_required hR _).bind hR fun _ => (within_wait hR _).bind hR fun _ => ?_
    exact within_pure hR _
  · exact (within_getStore hR).bind hR fun _ => within_pure hR _
  · exact within_throw hR _

theorem within_userCall (function : String) : (userCall function).Within R := by
  unfold userCall
  split
  · refine (within_required hR _).bind hR fun _ => (within_variableName hR _).bind hR fun _ => ?_
    refine (within_getValue hR _).bind hR fun answer => ?_
    cases answer <;> first | exact within_throw hR _ | exact within_pure hR _
  · exact within_throw hR _

/-- The modules that every registry starts with change the store by writes alone. -/
theorem within_all : ∀ m ∈ all, ∀ function, (m.call function).Within R := by
  simp only [all, List.mem_cons, List.not_mem_nil, or_false]
  rintro m (rfl | rfl | rfl | rfl | rfl)
  · exact within_variableCall hR
  · exact within_goalCall hR
  · exact within_conditionCall hR
  · exact within_timeCall hR
  · exact within_userCall hR

end Builtin

theorem Registry.mem_foldl_register {ms : List Module} {r : Registry} {entry : String × Module}
    (h : entry ∈ (ms.foldl (fun r m => r.register m.name m) r).modules) :
    entry.2 ∈ ms ∨ entry ∈ r.modules := by
  induction ms generalizing r with
  | nil => exact .inr h
  | cons m ms ih =>
    rcases ih h with hm | hr
    · exact .inl (List.mem_cons_of_mem _ hm)
    · exact (Table.mem_insert hr).imp_left fun he => by simp [he]

theorem Registry.mem_withBuiltins {entry : String × Module} (h : entry ∈ withBuiltins.modules) :
    entry.2 ∈ Builtin.all :=
  (mem_foldl_register h).resolve_right List.not_mem_nil

end GoalScript
