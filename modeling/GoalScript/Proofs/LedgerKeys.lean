import Mathlib.Algebra.Group.Nat.Defs
import Mathlib.Data.Set.Function
import GoalScript.Proofs.Conditions
import GoalScript.Proofs.Ledger

namespace GoalScript

namespace Digest

theorem toList_toArray (bytes : ByteArray) : bytes.toList = bytes.data.toList := by
  have loop (n i : Nat) (done : List UInt8) (hn : bytes.size - i = n) :
      ByteArray.toList.loop bytes i done = done.reverse ++ bytes.data.toList.drop i := by
    have size : bytes.data.toList.length = bytes.size := rfl
    induction n generalizing i done with
    | zero =>
      rw [ByteArray.toList.loop, if_neg (by omega), List.drop_eq_nil_of_le (by omega),
        List.append_nil]
    | succ n ih =>
      have hi : i < bytes.size := by omega
      have hl : i < bytes.data.toList.length := by omega
      have read : bytes.get! i = bytes.data.toList[i] := by
        simp [ByteArray.get!, getElem!_pos bytes.data i hi]
      rw [ByteArray.toList.loop, if_pos hi, ih (i + 1) _ (by omega),
        List.drop_eq_getElem_cons hl, read, List.reverse_cons, List.append_assoc]
      rfl
  exact loop _ 0 [] rfl

/-- A text is told by its bytes. -/
theorem bytesOf_injective : Function.Injective bytesOf := by
  intro s t h
  simp only [bytesOf, toList_toArray, String.toUTF8] at h
  exact String.toByteArray_inj.mp (ByteArray.ext (Array.toList_inj.mp h))

def lowBytes (n : Nat) : List UInt8 :=
  [UInt8.ofNat n, UInt8.ofNat (n >>> 8), UInt8.ofNat (n >>> 16), UInt8.ofNat (n >>> 24),
    UInt8.ofNat (n >>> 32), UInt8.ofNat (n >>> 40), UInt8.ofNat (n >>> 48)]

theorem littleEndian_eq (n : Nat) :
    littleEndian 8 n = lowBytes n ++ [UInt8.ofNat (n >>> 56)] := rfl

theorem lowBytes_injOn : Set.InjOn lowBytes {n | n < 2 ^ 56} := by
  intro n (hn : n < 2 ^ 56) m (hm : m < 2 ^ 56) h
  simp only [lowBytes, List.cons.injEq, ← UInt8.toNat_inj, UInt8.toNat_ofNat',
    Nat.shiftRight_eq_div_pow, and_true] at h
  omega

/-- The last of the eight bytes of a small number is zero. -/
theorem littleEndian_of_lt {n : Nat} (h : n < 2 ^ 56) : littleEndian 8 n = lowBytes n ++ [0] := by
  have high : n >>> 56 = 0 := by
    rw [Nat.shiftRight_eq_div_pow]
    omega
  rw [littleEndian_eq, high]
  rfl

end Digest

/-- What follows the last occurrence of an element is determined by the list. -/
theorem List.append_cons_inj_of_last {α : Type} {b : α} {l l' r r' : List α}
    (h : l ++ b :: r = l' ++ b :: r') (hr : b ∉ r) (hr' : b ∉ r') : l = l' ∧ r = r' := by
  rcases List.append_eq_append_iff.mp h with ⟨c, hl, hc⟩ | ⟨c, hl, hc⟩
  · cases c with
    | nil =>
      obtain ⟨-, rfl⟩ := List.cons.inj hc
      exact ⟨by simpa using hl.symm, rfl⟩
    | cons x c =>
      obtain ⟨-, rfl⟩ := List.cons.inj hc
      exact absurd (by simp) hr
  · cases c with
    | nil =>
      obtain ⟨-, rfl⟩ := List.cons.inj hc
      exact ⟨by simpa using hl, rfl⟩
    | cons x c =>
      obtain ⟨-, rfl⟩ := List.cons.inj hc
      exact absurd (by simp) hr'

/-- What a key is the digest of. -/
def Site.hashed (s : Site) : List UInt8 :=
  Digest.bytesOf s.goal.path ++ Digest.littleEndian 8 s.step.index ++ Digest.bytesOf s.step.text

namespace Site

variable {s t : Site}

/-- With one path the number comes at one place, and the text behind it. -/
theorem hashed_eq_iff_of_path (hp : s.goal.path = t.goal.path) (hs : s.step.index < 2 ^ 56)
    (ht : t.step.index < 2 ^ 56) :
    s.hashed = t.hashed ↔ s.step.index = t.step.index ∧ s.step.text = t.step.text := by
  constructor
  · intro h
    simp only [hashed, hp, List.append_assoc] at h
    have rest := List.append_cancel_left h
    obtain ⟨numbers, texts⟩ := List.append_inj rest rfl
    rw [Digest.littleEndian_of_lt hs, Digest.littleEndian_of_lt ht] at numbers
    exact ⟨Digest.lowBytes_injOn hs ht (List.append_cancel_right numbers),
      Digest.bytesOf_injective texts⟩
  · rintro ⟨hi, hx⟩
    rw [hashed, hashed, hp, hi, hx]

/-- The highest byte of the number is zero, and in the text there is no other. -/
theorem hashed_eq_iff (hs : s.step.index < 2 ^ 56) (ht : t.step.index < 2 ^ 56)
    (zs : 0 ∉ Digest.bytesOf s.step.text) (zt : 0 ∉ Digest.bytesOf t.step.text) :
    s.hashed = t.hashed ↔ s.goal.path = t.goal.path ∧ s.step.index = t.step.index ∧
      s.step.text = t.step.text := by
  constructor
  · intro h
    have split {u : Site} (hu : u.step.index < 2 ^ 56) : u.hashed =
        (Digest.bytesOf u.goal.path ++ Digest.lowBytes u.step.index) ++
          0 :: Digest.bytesOf u.step.text := by
      simp [hashed, Digest.littleEndian_of_lt hu]
    rw [split hs, split ht] at h
    obtain ⟨fronts, -⟩ := List.append_cons_inj_of_last h zs zt
    obtain ⟨paths, -⟩ := List.append_inj' fronts rfl
    have hp := Digest.bytesOf_injective paths
    exact ⟨hp, (hashed_eq_iff_of_path hp hs ht).mp (by rw [split hs, split ht, h])⟩
  · rintro ⟨hp, rest⟩
    exact (hashed_eq_iff_of_path hp hs ht).mpr rest

end Site

structure Library.Holds (lib : Library) (s : Site) : Prop where
  goal : s.goal ∈ lib.goals.map Prod.snd
  step : s.step ∈ s.goal.steps

theorem Library.mem_foldl_insert {goals : List Goal} {lib : Library} {goal : Goal}
    (h : goal ∈ (goals.foldl insert lib).goals.map Prod.snd) :
    (∃ declared ∈ goals, goal = declared.kept) ∨ goal ∈ lib.goals.map Prod.snd := by
  induction goals generalizing lib with
  | nil => exact .inr h
  | cons first rest ih =>
    rcases ih h with ⟨declared, member, rfl⟩ | inserted
    · exact .inl ⟨declared, List.mem_cons_of_mem _ member, rfl⟩
    · obtain ⟨entry, member, rfl⟩ := List.mem_map.mp inserted
      rcases Table.mem_insert member with rfl | old
      · exact .inl ⟨first, List.mem_cons_self, rfl⟩
      · exact .inr (List.mem_map_of_mem old)

/-- A library holds goals of its file, their steps numbered by their place. -/
theorem Library.declared_of_mem {file : LibraryFile} {goal : Goal}
    (h : goal ∈ (ofFile file).goals.map Prod.snd) :
    ∃ declared ∈ file.goals, goal = declared.kept :=
  (mem_foldl_insert h).resolve_right List.not_mem_nil

section

variable {file : LibraryFile} {s t : Site}

theorem Library.Holds.numbered (h : (Library.ofFile file).Holds s) : s.goal.Numbered := by
  obtain ⟨declared, -, kept⟩ := declared_of_mem h.goal
  rw [kept]
  exact declared.numbered_kept

/-- The number of a step is less than that of the steps of its goal. -/
theorem Library.Holds.index_lt (h : (Library.ofFile file).Holds s) :
    ∃ declared ∈ file.goals, s.step.index < declared.steps.length := by
  obtain ⟨declared, member, kept⟩ := declared_of_mem h.goal
  obtain ⟨i, hi, hs⟩ := List.getElem_of_mem h.step
  have index := h.numbered i s.step (List.getElem?_eq_some_iff.mpr ⟨hi, hs⟩)
  refine ⟨declared, member, ?_⟩
  rw [index]
  simpa [kept, Goal.kept, GoalScript.numbered] using hi

/-- Within a goal the number tells which step it is. -/
theorem Library.Holds.step_eq (hs : (Library.ofFile file).Holds s)
    (ht : (Library.ofFile file).Holds t) (hg : s.goal = t.goal)
    (hi : s.step.index = t.step.index) : s.step = t.step := by
  obtain ⟨i, hi', hs'⟩ := List.getElem_of_mem hs.step
  obtain ⟨j, hj', ht'⟩ := List.getElem_of_mem ht.step
  have placed := hs.numbered i s.step (List.getElem?_eq_some_iff.mpr ⟨hi', hs'⟩)
  have placed' := ht.numbered j t.step (List.getElem?_eq_some_iff.mpr ⟨hj', ht'⟩)
  obtain rfl : i = j := placed.symm.trans (hi.trans placed')
  rw [← hs', ← ht']
  simp only [hg]

/-- The keys of a library's steps tell path, number and text apart, and so the steps of one goal. Of
goals that share a path they do not tell which one a step belongs to. -/
theorem ledger_keys_identify (fits : ∀ goal ∈ file.goals, goal.steps.length ≤ 2 ^ 56)
    (unbroken : Set.InjOn Digest.sha256 (Site.hashed '' {s | (Library.ofFile file).Holds s}))
    (hs : (Library.ofFile file).Holds s) (ht : (Library.ofFile file).Holds t) :
    (s.goal = t.goal → ledgerKey s.goal s.step = ledgerKey t.goal t.step → s.step = t.step) ∧
    (s.goal.path = t.goal.path → (ledgerKey s.goal s.step = ledgerKey t.goal t.step ↔
      s.step.index = t.step.index ∧ s.step.text = t.step.text)) ∧
    (0 ∉ Digest.bytesOf s.step.text → 0 ∉ Digest.bytesOf t.step.text →
      (ledgerKey s.goal s.step = ledgerKey t.goal t.step ↔ s.goal.path = t.goal.path ∧
        s.step.index = t.step.index ∧ s.step.text = t.step.text)) := by
  have small {u : Site} (hu : (Library.ofFile file).Holds u) : u.step.index < 2 ^ 56 := by
    obtain ⟨declared, member, below⟩ := hu.index_lt
    exact Nat.lt_of_lt_of_le below (fits declared member)
  have same : ledgerKey s.goal s.step = ledgerKey t.goal t.step ↔ s.hashed = t.hashed :=
    unbroken.eq_iff ⟨s, hs, rfl⟩ ⟨t, ht, rfl⟩
  refine ⟨fun hg hk => ?_, fun hp => ?_, fun zs zt => ?_⟩
  · have parts := (Site.hashed_eq_iff_of_path (congrArg Goal.path hg) (small hs) (small ht)).mp
      (same.mp hk)
    exact hs.step_eq ht hg parts.1
  · exact same.trans (Site.hashed_eq_iff_of_path hp (small hs) (small ht))
  · exact same.trans (Site.hashed_eq_iff (small hs) (small ht) zs zt)

end

theorem Library.mem_of_get? {lib : Library} {name : String} {goal : Goal}
    (h : lib.get? name = some goal) : goal ∈ lib.goals.map Prod.snd := by
  obtain ⟨before, after, found, -⟩ := List.lookup_eq_some_iff.mp h
  simp [found]

/-- Goals of different names are both held. -/
theorem Library.holds_pair {a b : Goal} {step : Step}
    (names : Text.lowercase a.name ≠ Text.lowercase b.name) :
    (step ∈ a.kept.steps → (ofFile { goals := [a, b] }).Holds ⟨a.kept, step⟩) ∧
    (step ∈ b.kept.steps → (ofFile { goals := [a, b] }).Holds ⟨b.kept, step⟩) := by
  have first : (ofFile { goals := [a, b] }).get? a.name = some a.kept := by
    simp [get?, ofFile, insert, Table.get?_insert, names, Goal.kept]
  have second : (ofFile { goals := [a, b] }).get? b.name = some b.kept := by
    simp [get?, ofFile, insert, Table.get?_insert, Goal.kept]
  exact ⟨fun own => ⟨mem_of_get? first, own⟩, fun own => ⟨mem_of_get? second, own⟩⟩

/-- Two goals, each with a path of its own and with one step. -/
theorem ledger_keys_identify_paths :
    let step : Step := { Step.new "probe" { function := "record" } with runOnce := true }
    let first := Goal.new "First" [step]
    let second := Goal.new "Second" [step]
    let file : LibraryFile := { goals := [first, second] }
    Set.InjOn Digest.sha256 (Site.hashed '' {s | (Library.ofFile file).Holds s}) ∧
    (ledgerKey first step = ledgerKey second step ↔
      first.path = second.path ∧ step.index = step.index ∧ step.text = step.text) := by
  intro step first second file
  have different : ledgerKey first step ≠ ledgerKey second step := by decide +kernel
  have declared {goal : Goal} (h : goal ∈ file.goals) : goal = first ∨ goal = second := by
    simpa [file] using h
  have sites {s : Site} (hs : (Library.ofFile file).Holds s) :
      s = ⟨first, step⟩ ∨ s = ⟨second, step⟩ := by
    obtain ⟨goal, held⟩ := s
    obtain ⟨goal', member, (rfl : goal = goal'.kept)⟩ := Library.declared_of_mem hs.goal
    have own := hs.step
    rcases declared member with rfl | rfl
    · obtain rfl : held = step := List.mem_singleton.mp own
      exact .inl rfl
    · obtain rfl : held = step := List.mem_singleton.mp own
      exact .inr rfl
  have unbroken : Set.InjOn Digest.sha256 (Site.hashed '' {s | (Library.ofFile file).Holds s}) := by
    rintro _ ⟨s, hs, rfl⟩ _ ⟨t, ht, rfl⟩ hk
    rcases sites hs with rfl | rfl <;> rcases sites ht with rfl | rfl
    · rfl
    · exact absurd hk different
    · exact absurd hk.symm different
    · rfl
  have fits : ∀ goal ∈ file.goals, goal.steps.length ≤ 2 ^ 56 := by
    intro goal member
    rcases declared member with rfl | rfl <;> decide
  have names : Text.lowercase first.name ≠ Text.lowercase second.name := by decide
  have own : step ∈ [step] := List.mem_singleton_self step
  have hs : (Library.ofFile file).Holds ⟨first, step⟩ := (Library.holds_pair names).1 own
  have ht : (Library.ofFile file).Holds ⟨second, step⟩ := (Library.holds_pair names).2 own
  have silent : 0 ∉ Digest.bytesOf step.text := by decide +kernel
  exact ⟨unbroken, (ledger_keys_identify fits unbroken hs ht).2.2 silent silent⟩

open Run in
/-- Two goals without a path, each with one step: when the one is done, the other is passed over. -/
theorem ledger_keys_shared :
    let step : Step := {
      moduleType := "probe", instruction := { function := "record" }, runOnce := true }
    let first : Goal := { name := "First", steps := [step] }
    let second : Goal := { name := "Second", steps := [step] }
    let lib := Library.ofFile { goals := [first, second] }
    lib.Holds ⟨first, step⟩ ∧ lib.Holds ⟨second, step⟩ ∧ first.name ≠ second.name ∧
    ledgerKey first step = ledgerKey second step ∧
    ∀ w, passesOver ((recordDone ⟨first, step⟩).run w).2 ⟨second, step⟩ = true := by
  intro step first second lib
  have names : Text.lowercase first.name ≠ Text.lowercase second.name := by decide
  have own : step ∈ [step] := List.mem_singleton_self step
  have held : lib.Holds ⟨first, step⟩ := (Library.holds_pair names).1 own
  have held' : lib.Holds ⟨second, step⟩ := (Library.holds_pair names).2 own
  refine ⟨held, held', by decide, rfl, fun w => ?_⟩
  have recorded : ((recordDone ⟨first, step⟩).run w).2.store.isRecorded (ledgerKey second step) =
      true := (recorded_recordDone rfl w).1
  simp [passesOver, recorded, step]

end GoalScript
