import GoalScript.Proofs.Machine
import GoalScript.Proofs.Silence

namespace GoalScript

namespace Entry

/-- What an entry makes of the goals that run. For each of them, innermost first, it is kept whether
a request may be presented for the last attempt in it. -/
def attend : Entry → List Bool → Option (List Bool)
  | .goalStarted .., flags => some (false :: flags)
  | .goalEnded _, _ :: flags => some flags
  | .goalEnded _, [] => none
  | .attempted .., _ :: flags => some (true :: flags)
  | .attempted .., [] => none
  | .prompted _, true :: flags => some (false :: flags)
  | .prompted _, _ => none
  | _, flags => some flags

def attended (flags : List Bool) : List Entry → Option (List Bool)
  | [] => some flags
  | entry :: older => (attended flags older).bind entry.attend

/-- Whatever goals run, each presentation is the first one after an attempt in its goal. -/
def Attended (entries : List Entry) : Prop := ∀ flags, (attended flags entries).isSome

/-- Besides, all goals that have been begun are over, and nothing is attempted or presented in the
goal around them. -/
def Aside (entries : List Entry) : Prop := ∀ flags, attended flags entries = some flags

/-- Entries make of the goals that run what older and newer ones make of them in turn. -/
theorem attended_append (flags : List Bool) (new old : List Entry) :
    attended flags (new ++ old) = (attended flags old).bind (attended · new) := by
  induction new with
  | nil => simp [attended]
  | cons entry new ih =>
    rw [List.cons_append, attended, ih]
    cases attended flags old <;> rfl

theorem IsRemark.attend {entry : Entry} (h : entry.IsRemark) (flags : List Bool) :
    entry.attend flags = some flags := by
  cases entry <;> first | rfl | exact h.elim

/-- Remarks are about no goal. -/
theorem aside_of_remarks {entries : List Entry} (h : ∀ entry ∈ entries, entry.IsRemark) :
    Aside entries := by
  intro flags
  induction entries with
  | nil => rfl
  | cons entry entries ih =>
    rw [Entry.attended, ih fun e he => h e (List.mem_cons_of_mem _ he)]
    exact (h entry List.mem_cons_self).attend flags

end Entry

/-- The module's functions enter remarks in the journal and nothing else. -/
def Module.Candid (m : Module) : Prop :=
  ∀ function site (s : Surroundings), s.Remarks ((m.call function site).run s).2

def Handle.Candid (h : Handle) : Prop := ∀ entry ∈ h.registry.modules, entry.2.Candid

theorem Builtin.candid_of_mem {m : Module} (h : m ∈ all) : m.Candid :=
  fun function site s => (within_all Store.allows_silent m h function site s).2.2

/-- The registry that engines start with. -/
theorem Handle.candid_withBuiltins (stamp : Nat) : Handle.Candid ⟨.withBuiltins, stamp⟩ :=
  fun _ he => Builtin.candid_of_mem (Registry.mem_withBuiltins he)

structure World.Attends (old : List Entry) (start : List Bool) (w : World) (flags : List Bool) :
    Prop where
  candid : w.engine.registry.Candid
  entries : ∃ new, w.host.journal = new ++ old ∧ Entry.attended start new = some flags

namespace World.Attends

variable {old : List Entry} {start flags flags' : List Bool} {v w : World}

theorem of_same (h : w.Attends old start flags) (journal : v.host.journal = w.host.journal)
    (modules : v.engine.registry.registry.modules = w.engine.registry.registry.modules) :
    v.Attends old start flags where
  candid entry he := h.candid entry (modules ▸ he)
  entries := journal ▸ h.entries

theorem append (h : w.Attends old start flags) (new : List Entry)
    (journal : v.host.journal = new ++ w.host.journal)
    (modules : v.engine.registry.registry.modules = w.engine.registry.registry.modules)
    (attended : Entry.attended flags new = some flags') : v.Attends old start flags' where
  candid entry he := h.candid entry (modules ▸ he)
  entries := by
    obtain ⟨older, hj, hs⟩ := h.entries
    refine ⟨new ++ older, by rw [journal, hj, List.append_assoc], ?_⟩
    rw [Entry.attended_append, hs]
    exact attended

theorem record {entry : Entry} (h : w.Attends old start flags)
    (attend : entry.attend flags = some flags') : (w.record entry).Attends old start flags' :=
  h.append [entry] rfl rfl attend

theorem attended_eq {new : List Entry} (h : w.Attends old start flags)
    (journal : w.host.journal = new ++ old) : Entry.attended start new = some flags := by
  obtain ⟨new', journal', attended⟩ := h.entries
  obtain rfl : new = new' := List.append_cancel_right (journal.symm.trans journal')
  exact attended

/-- The journal tells which flags are up. -/
theorem unique (h : w.Attends old start flags) (k : w.Attends old start flags') :
    flags = flags' := by
  obtain ⟨new, journal, attended⟩ := h.entries
  exact Option.some.inj (attended.symm.trans (k.attended_eq journal))

/-- Nothing has been entered yet. -/
theorem refl (h : w.engine.registry.Candid) (flags : List Bool) :
    w.Attends w.host.journal flags flags := ⟨h, [], rfl, rfl⟩

end World.Attends

/-- Goals and callbacks keep to themselves; a recovery attempts and presents in its goal. -/
def attending (old : List Entry) (start : List Bool) : Contract where
  always w := ∃ flags, w.Attends old start flags
  owes t w := match t with
    | .goal .. => ∃ flags, w.Attends old start flags
    | .fire _ => ∃ flags, w.Attends old start flags
    | .recovery .. => ∃ flag flags, w.Attends old start (flag :: flags)
  grants t w e := match t with
    | .goal .. => ∀ flags, w.Attends old start flags → e.2.Attends old start flags
    | .fire _ => ∀ flags, w.Attends old start flags → e.2.Attends old start flags
    | .recovery .. => ∀ flag flags, w.Attends old start (flag :: flags) →
      ∃ flag', e.2.Attends old start (flag' :: flags)

namespace Run

variable {α β : Type} {app : App} {old : List GoalScript.Entry} {start : List Bool}

def StaysAside (old : List GoalScript.Entry) (start : List Bool) (p : Run α) : Prop :=
  ∀ w flags, w.Attends old start flags →
    p.Meets (attending old start) (fun e => e.2.Attends old start flags) w

/-- In the goal in which it is begun the part presents at most one request after each attempt. -/
def Attends (old : List GoalScript.Entry) (start : List Bool) (p : Run α) : Prop :=
  ∀ w flag flags, w.Attends old start (flag :: flags) →
    p.Meets (attending old start) (fun e => ∃ flag', e.2.Attends old start (flag' :: flags)) w

/-- What presents nothing presents nothing too often. -/
theorem StaysAside.attends {p : Run α} (h : StaysAside old start p) : Attends old start p :=
  fun w flag flags hw => (h w (flag :: flags) hw).mono fun _ he => ⟨flag, he⟩

theorem Meets.bind_aside {p : Run α} {f : α → Run β} {w : World} {flags : List Bool}
    (hp : p.Meets (attending old start) (fun e => e.2.Attends old start flags) w)
    (hf : ∀ a, StaysAside old start (f a)) :
    (p >>= f).Meets (attending old start) (fun e => e.2.Attends old start flags) w := by
  refine meets_bind.mpr (hp.mono ?_)
  rintro ⟨result, v⟩ hv
  cases result with
  | error x => exact hv
  | ok a => exact hf a v flags hv

theorem StaysAside.bind {p : Run α} {f : α → Run β} (hp : StaysAside old start p)
    (hf : ∀ a, StaysAside old start (f a)) : StaysAside old start (p >>= f) :=
  fun w flags hw => (hp w flags hw).bind_aside hf

theorem Attends.bind {p : Run α} {f : α → Run β} (hp : Attends old start p)
    (hf : ∀ a, Attends old start (f a)) : Attends old start (p >>= f) := by
  intro w flag flags hw
  refine meets_bind.mpr ((hp w flag flags hw).mono ?_)
  rintro ⟨result, v⟩ ⟨flag', hv⟩
  cases result with
  | error x => exact ⟨flag', hv⟩
  | ok a => exact hf a v flag' flags hv

theorem aside_pure (a : α) : StaysAside old start (pure a : Run α) := fun _ _ hw => hw

theorem aside_throw (e : EngineError) : StaysAside old start (throw e : Run α) := fun _ _ hw => hw

theorem aside_get_bind {f : World → Run β}
    (h : ∀ w flags, w.Attends old start flags →
      (f w).Meets (attending old start) (fun e => e.2.Attends old start flags) w) :
    StaysAside old start (get >>= f) :=
  fun w flags hw => meets_get_bind.mpr ⟨⟨flags, hw⟩, h w flags hw⟩

theorem aside_update {f : World → World}
    (h : ∀ w flags, w.Attends old start flags → (f w).Attends old start flags) :
    StaysAside old start (update f) :=
  fun w flags hw => meets_update.mpr ⟨⟨flags, h w flags hw⟩, h w flags hw⟩

/-- The change concerns neither the journal nor the modules. -/
theorem aside_modify {f : World → World} (journal : ∀ w, (f w).host.journal = w.host.journal)
    (modules : ∀ w, (f w).engine.registry.registry.modules = w.engine.registry.registry.modules) :
    StaysAside old start (update f) :=
  aside_update fun w _ hw => hw.of_same (journal w) (modules w)

theorem aside_note {entry : GoalScript.Entry} (h : ∀ flags, entry.attend flags = some flags) :
    StaysAside old start (note entry) := aside_update fun _ flags hw => hw.record (h flags)

theorem meets_set_of_append {v w : World} {flags : List Bool} (hw : w.Attends old start flags)
    (new : List GoalScript.Entry) (journal : v.host.journal = new ++ w.host.journal)
    (modules : v.engine.registry.registry.modules = w.engine.registry.registry.modules)
    (aside : Entry.Aside new) :
    (set v : Run PUnit).Meets (attending old start) (fun e => e.2.Attends old start flags) w :=
  have hv := hw.append new journal modules (aside flags)
  meets_set.mpr ⟨⟨flags, hv⟩, hv⟩

theorem meets_set_of_same {v w : World} {flags : List Bool} (hw : w.Attends old start flags)
    (journal : v.host.journal = w.host.journal)
    (modules : v.engine.registry.registry.modules = w.engine.registry.registry.modules) :
    (set v : Run PUnit).Meets (attending old start) (fun e => e.2.Attends old start flags) w :=
  meets_set_of_append hw [] journal modules fun _ => rfl

theorem StaysAside.outcome {p : Run α} (h : StaysAside old start p) :
    StaysAside old start (outcome p) := fun w flags hw => meets_outcome.mpr (h w flags hw)

theorem Attends.outcome {p : Run α} (h : Attends old start p) : Attends old start (outcome p) :=
  fun w flag flags hw => meets_outcome.mpr (h w flag flags hw)

theorem aside_forM {f : α → Run PUnit} (h : ∀ a, StaysAside old start (f a)) (as : List α) :
    StaysAside old start (as.forM f) := by
  induction as with
  | nil => exact aside_pure _
  | cons a as ih => exact (h a).bind fun _ => ih

theorem aside_mapM {f : α → Run β} (h : ∀ a, StaysAside old start (f a)) (as : List α) :
    StaysAside old start (as.mapM f) := by
  have loop (as : List α) (done : List β) : StaysAside old start (List.mapM.loop f as done) := by
    induction as generalizing done with
    | nil => exact aside_pure _
    | cons a as ih => exact (h a).bind fun b => ih (b :: done)
  exact loop as []

theorem aside_ofMemory (r : Resolved α) : StaysAside old start (ofMemory r) := by
  cases r with
  | ok a => exact aside_pure a
  | error e => exact aside_throw _

end Run

end GoalScript
