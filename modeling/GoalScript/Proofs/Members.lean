import GoalScript.Memory.Write
import GoalScript.Proofs.Tables

namespace GoalScript

namespace Text

def folded (s : String) : List Char := s.toList.map Char.toLower

theorem sameName_iff {s t : String} : sameName s t = true ↔ folded s = folded t := by
  simp [sameName, eqIgnoringCase, folded]

theorem sameName_refl (s : String) : sameName s s = true := sameName_iff.mpr rfl

/-- ASCII lower case by code points. -/
theorem toNat_toLower (c : Char) :
    c.toLower.toNat = if 65 ≤ c.toNat ∧ c.toNat ≤ 90 then c.toNat + 32 else c.toNat := by
  have upper : (c.val ≥ 'A'.val ∧ c.val ≤ 'Z'.val) ↔ 65 ≤ c.toNat ∧ c.toNat ≤ 90 := by
    simp only [ge_iff_le, UInt32.le_iff_toNat_le]
    rfl
  unfold Char.toLower
  by_cases h : 65 ≤ c.toNat ∧ c.toNat ≤ 90
  · rw [dif_pos (upper.mpr h), if_pos h, Char.toNat_mk, UInt32.toNat_add]
    change (c.toNat + 32) % 4294967296 = c.toNat + 32
    omega
  · rw [dif_neg (fun k => h (upper.mp k)), if_neg h]

theorem eq_of_toLower_eq {c d : Char} (digit : d.isDigit = true) (h : c.toLower = d.toLower) :
    c = d := by
  have range := Char.isDigit_iff_toNat.mp digit
  have same := congrArg Char.toNat h
  rw [toNat_toLower, toNat_toLower] at same
  have low : '0'.toNat = 48 := rfl
  have high : '9'.toNat = 57 := rfl
  apply Char.toNat_inj.mp
  split at same <;> split at same <;> omega

theorem isDigit_of_mem_toString {n : Nat} {c : Char} (h : c ∈ (toString n).toList) :
    c.isDigit = true := by
  have digits : (toString n).toList = Nat.toDigits 10 n := by simp
  rw [digits] at h
  exact Nat.isDigit_of_mem_toDigits (by decide) (by decide) h

/-- Digits have no case. -/
theorem sameName_toString_iff {s : String} {n : Nat} :
    sameName s (toString n) = true ↔ s = toString n := by
  constructor
  · intro h
    have same := sameName_iff.mp h
    apply String.toList_inj.mp
    apply List.ext_getElem
    · simpa [folded] using congrArg List.length same
    · intro i hi hj
      have letters : (folded s)[i]? = (folded (toString n))[i]? := by rw [same]
      simp only [folded, List.getElem?_map, List.getElem?_eq_getElem hi,
        List.getElem?_eq_getElem hj, Option.map_some, Option.some.injEq] at letters
      exact eq_of_toLower_eq (isDigit_of_mem_toString (List.getElem_mem hj)) letters
  · rintro rfl
    exact sameName_refl _

end Text

namespace Value

variable {members : List (String × Value)} {k l name : String} {u v : Value}

/-- An exact name comes first, then the first that is equal up to case. -/
theorem findMember?_eq_some_iff :
    findMember? members k = some (name, u) ↔
      members.find? (fun m => m.1 == k) = some (name, u) ∨
        members.find? (fun m => m.1 == k) = none ∧
          members.find? (fun m => Text.sameName m.1 k) = some (name, u) := by
  unfold findMember?
  cases members.find? (fun m => m.1 == k) <;> simp

theorem findMember?_eq_none_iff :
    findMember? members k = none ↔ ∀ m ∈ members, Text.sameName m.1 k = false := by
  unfold findMember?
  rw [Option.or_eq_none_iff, List.find?_eq_none, List.find?_eq_none]
  constructor
  · rintro ⟨-, differ⟩ m hm
    simpa using differ m hm
  · intro differ
    refine ⟨fun m hm hk => ?_, fun m hm => by simp [differ m hm]⟩
    have same := differ m hm
    rw [beq_iff_eq.mp hk, Text.sameName_refl] at same
    cases same

theorem mem_of_findMember? (h : findMember? members k = some (name, u)) : (name, u) ∈ members := by
  rcases findMember?_eq_some_iff.mp h with own | ⟨-, folded⟩
  · exact List.mem_of_find?_eq_some own
  · exact List.mem_of_find?_eq_some folded

theorem sameName_of_findMember? (h : findMember? members k = some (name, u)) :
    Text.sameName name k = true := by
  rcases findMember?_eq_some_iff.mp h with own | ⟨-, folded⟩
  · have hk : name = k := by simpa using List.find?_some own
    rw [hk]
    exact Text.sameName_refl k
  · simpa using List.find?_some folded

theorem lookup_of_findMember? (h : findMember? members k = some (name, u)) :
    members.lookup name = some u := by
  rcases findMember?_eq_some_iff.mp h with own | ⟨-, folded⟩
  · exact Table.lookup_of_find? (p := (· == k)) own
  · exact Table.lookup_of_find? (p := (Text.sameName · k)) folded

theorem storedName_of_found (h : findMember? members k = some (name, u)) :
    storedName members k = name := by
  simp [storedName, h]

theorem storedName_of_none (h : findMember? members k = none) : storedName members k = k := by
  simp [storedName, h]

/-- Nothing is stored under a name that differs from the one given in more than case. -/
theorem sameName_storedName (members : List (String × Value)) (k : String) :
    Text.sameName (storedName members k) k = true := by
  cases h : findMember? members k with
  | none =>
    rw [storedName_of_none h]
    exact Text.sameName_refl k
  | some found =>
    rw [storedName_of_found h]
    exact sameName_of_findMember? h

/-- A position is stored under its digits. -/
@[simp]
theorem storedName_toString (members : List (String × Value)) (n : Nat) :
    storedName members (toString n) = toString n :=
  Text.sameName_toString_iff.mp (sameName_storedName members _)

/-- What is written under a name is what the name then stands for. -/
theorem findMember?_insert (members : List (String × Value)) (k : String) (v : Value) :
    findMember? (Table.insert members (storedName members k) v) k =
      some (storedName members k, v) := by
  cases h : findMember? members k with
  | none =>
    rw [storedName_of_none h]
    exact findMember?_eq_some_iff.mpr (.inl Table.find?_insert_self)
  | some found =>
    obtain ⟨name, u⟩ := found
    rw [storedName_of_found h]
    apply findMember?_eq_some_iff.mpr
    rcases findMember?_eq_some_iff.mp h with own | ⟨absent, folded⟩
    · exact .inl (Table.find?_insert_of_found (p := (· == k)) own)
    · have other : (name == k) = false := by
        simpa using List.find?_eq_none.mp absent _ (mem_of_findMember? h)
      refine .inr ⟨?_, Table.find?_insert_of_found (p := (Text.sameName · k)) folded⟩
      rw [Table.find?_insert_of_not (p := (· == k)) other, absent]

/-- The name stands for the member beyond doubt: it is the member's own, or no other member's name
is equal to it up to case. -/
structure Denotes (members : List (String × Value)) (k name : String) (u : Value) : Prop where
  found : findMember? members k = some (name, u)
  clear : name = k ∨ ∀ m ∈ members, Text.sameName m.1 k = true → m.1 = name

theorem Denotes.insert_self (h : Denotes members k name u) :
    Denotes (Table.insert members name v) k name v := by
  have same := storedName_of_found h.found
  refine ⟨?_, ?_⟩
  · rw [← same]
    exact findMember?_insert members k v
  · rcases h.clear with own | only
    · exact .inl own
    · right
      intro m hm hs
      rcases Table.mem_insert hm with rfl | old
      · rfl
      · exact only m old hs

/-- What is written under another member's name leaves the member alone. -/
theorem Denotes.insert_of_ne (h : Denotes members k name u) (hl : storedName members l ≠ name) :
    Denotes (Table.insert members (storedName members l) v) k name u := by
  cases same : Text.sameName (storedName members l) k with
  | false =>
    have other : (storedName members l == k) = false := by
      apply beq_eq_false_iff_ne.mpr
      intro hk
      rw [hk, Text.sameName_refl] at same
      cases same
    refine ⟨?_, ?_⟩
    · unfold findMember?
      rw [Table.find?_insert_of_not (p := (· == k)) other,
        Table.find?_insert_of_not (p := (Text.sameName · k)) same]
      exact h.found
    · apply h.clear.imp_right
      intro only m hm hs
      rcases Table.mem_insert hm with rfl | old
      · rw [same] at hs
        cases hs
      · exact only m old hs
  | true =>
    rcases h.clear with own | only
    · have other : (storedName members l == k) = false := by simpa [own] using hl
      refine ⟨findMember?_eq_some_iff.mpr (.inl ?_), .inl own⟩
      rw [Table.find?_insert_of_not (p := (· == k)) other]
      rcases findMember?_eq_some_iff.mp h.found with first | ⟨absent, -⟩
      · exact first
      · exact absurd (by simp [own]) (List.find?_eq_none.mp absent _ (mem_of_findMember? h.found))
    · -- The only member of that name is the one denoted, so nothing else is written.
      exfalso
      apply hl
      cases hf : findMember? members l with
      | some found =>
        rw [storedName_of_found hf] at same ⊢
        exact only _ (mem_of_findMember? hf) same
      | none =>
        have differs := findMember?_eq_none_iff.mp hf _ (mem_of_findMember? h.found)
        rw [storedName_of_none hf] at same
        have folded := Text.sameName_iff.mp (sameName_of_findMember? h.found)
        rw [← Text.sameName_iff.mp same] at folded
        rw [Text.sameName_iff.mpr folded] at differs
        cases differs

end Value

end GoalScript
