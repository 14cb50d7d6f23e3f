import GoalScript.Proofs.Members
import GoalScript.Proofs.Writes

namespace GoalScript

def Place.name : Place → String
  | .key k => k
  | .position n => toString n

def Place.folded (place : Place) : List Char := Text.folded place.name

/-- Neither path is the beginning of the other, the case of ASCII letters aside. -/
def Apart (p q : List Place) : Prop :=
  ¬ p.map Place.folded <+: q.map Place.folded ∧ ¬ q.map Place.folded <+: p.map Place.folded

instance (p q : List Place) : Decidable (Apart p q) := inferInstanceAs (Decidable (_ ∧ _))

theorem Apart.tail {a b : Place} {p q : List Place} (h : Apart (a :: p) (b :: q))
    (same : a.folded = b.folded) : Apart p q := by
  simpa [Apart, same] using h

theorem not_apart_nil_left (q : List Place) : ¬ Apart [] q := fun h => h.1 (by simp)

theorem not_apart_nil_right (p : List Place) : ¬ Apart p [] := fun h => h.2 (by simp)

namespace Value

def step? (v : Value) (place : Place) : Option Value :=
  match v, place with
  | .object members, place => (findMember? members place.name).map Prod.snd
  | .list items, .position n => if n = 0 then none else items[n - 1]?
  | _, _ => none

def follow? (v : Value) : List Place → Option Value
  | [] => some v
  | place :: rest => (v.step? place).bind fun u => u.follow? rest

def opened (v : Value) (place : Place) : Value := if v.isNull then emptyFor place else v

/-- What writing at the end of a path makes of a value. -/
inductive Written (new : Value) : List Place → Value → Value → Prop where
  | here (v : Value) : Written new [] v new
  | member {v inner : Value} {members : List (String × Value)} {place : Place} {rest : List Place}
      (target : v.opened place = .object members)
      (below : Written new rest ((v.step? place).getD .null) inner) :
      Written new (place :: rest) v
        (.object (Table.insert members (storedName members place.name) inner))
  | element {v inner : Value} {items : List Value} {n : Nat} {rest : List Place}
      (target : v.opened (.position n) = .list items) (low : 0 < n) (high : n ≤ items.length + 1)
      (below : Written new rest ((v.step? (.position n)).getD .null) inner) :
      Written new (.position n :: rest) v (.list (items.take (n - 1) ++ inner :: items.drop n))

/-- What is stored under a name is what the name finds. -/
theorem lookup_storedName (members : List (String × Value)) (k : String) :
    members.lookup (storedName members k) = (findMember? members k).map Prod.snd := by
  cases h : findMember? members k with
  | some found => rw [storedName_of_found h, lookup_of_findMember? h, Option.map_some]
  | none =>
    rw [storedName_of_none h, Option.map_none, List.lookup_eq_none_iff]
    intro m hm
    have differs := findMember?_eq_none_iff.mp h m hm
    apply bne_iff_ne.mpr
    intro same
    rw [same, Text.sameName_refl] at differs
    cases differs

/-- What was there before a container was opened. -/
theorem getD_step?_of_object {v : Value} {place : Place} {members : List (String × Value)}
    (target : v.opened place = .object members) :
    (v.step? place).getD .null =
      (members.lookup (storedName members place.name)).getD .null := by
  rw [lookup_storedName]
  unfold opened at target
  split at target
  · rename_i absent
    cases v <;> cases place <;> cases target <;> first | rfl | cases absent
  · subst target
    rfl

theorem getD_step?_of_list {v : Value} {n : Nat} {items : List Value} (low : 0 < n)
    (target : v.opened (.position n) = .list items) :
    (v.step? (.position n)).getD .null = items.getD (n - 1) .null := by
  unfold opened at target
  split at target
  · rename_i absent
    cases v <;> cases target <;> first | rfl | cases absent
  · subst target
    have some : n ≠ 0 := by omega
    simp [step?, some, List.getD_eq_getElem?_getD]

/-- An assignment that succeeds writes at the end of its path. -/
theorem written_of_assign {expr : String} {new w : Value} {path : List Place} {v : Value}
    (h : assign expr new path v = .ok w) : Written new path v w := by
  induction path generalizing v w with
  | nil =>
    cases h
    exact .here v
  | cons place rest ih =>
    unfold assign at h
    dsimp only at h
    split at h
    · rename_i members k target
      obtain ⟨inner, below, h⟩ := Resolved.bind_eq_ok.mp h
      cases h
      have named : storedName members (Place.key k).name = storedName members k := rfl
      rw [← named] at below ⊢
      rw [← getD_step?_of_object target] at below
      exact .member target (ih below)
    · rename_i members n target
      obtain ⟨inner, below, h⟩ := Resolved.bind_eq_ok.mp h
      cases h
      have digits : storedName members (Place.position n).name = toString n :=
        storedName_toString members n
      rw [← digits] at below ⊢
      rw [← getD_step?_of_object target] at below
      exact .member target (ih below)
    · rename_i items n target
      split at h
      · cases h
      · rename_i within
        obtain ⟨inner, below, h⟩ := Resolved.bind_eq_ok.mp h
        cases h
        have bounds : 0 < n ∧ n ≤ items.length + 1 := by
          simp only [Bool.or_eq_true, beq_iff_eq, decide_eq_true_eq, not_or] at within
          omega
        apply Written.element target bounds.1 bounds.2
        rw [getD_step?_of_list bounds.1 target]
        exact ih below
    · cases h

/-- The element that was replaced or appended is there, and the others are where they were. -/
theorem getElem?_replaced {items : List Value} {i : Nat} (hi : i ≤ items.length) (x : Value)
    (j : Nat) :
    (items.take i ++ x :: items.drop (i + 1))[j]? = if j = i then some x else items[j]? := by
  have taken : (items.take i).length = i := by
    rw [List.length_take]
    omega
  by_cases hj : j < i
  · rw [List.getElem?_append_left (by omega), List.getElem?_take_of_lt hj, if_neg (by omega)]
  · rw [List.getElem?_append_right (by omega), taken]
    by_cases he : j = i
    · simp [he]
    · obtain ⟨d, hd⟩ : ∃ d, j - i = d + 1 := ⟨j - i - 1, by omega⟩
      rw [hd, List.getElem?_cons_succ, List.getElem?_drop, if_neg he]
      congr 1
      omega

theorem getElem?_element {items : List Value} {n : Nat} (low : 0 < n)
    (high : n ≤ items.length + 1) (x : Value) (j : Nat) :
    (items.take (n - 1) ++ x :: items.drop n)[j]? = if j = n - 1 then some x else items[j]? := by
  have shifted : n = n - 1 + 1 := by omega
  have replaced := getElem?_replaced (show n - 1 ≤ items.length by omega) x j
  rwa [← shifted] at replaced

/-- What is written at the end of a path is what the path then leads to. -/
theorem Written.follow? {new v w : Value} {path : List Place} (h : Written new path v w) :
    w.follow? path = some new := by
  induction h with
  | here v => rfl
  | @member v inner members place rest target below ih =>
    simp [Value.follow?, step?, findMember?_insert, ih]
  | @element v inner items n rest target low high below ih =>
    have there : n ≠ 0 := by omega
    simp [Value.follow?, step?, there, getElem?_element low high, ih]

/-- The path leads from one value to another: by names that stand for members beyond doubt, and by
positions of elements. -/
inductive Leads : List Place → Value → Value → Prop where
  | here (v : Value) : Leads [] v v
  | member {members : List (String × Value)} {name : String} {place : Place} {rest : List Place}
      {u w : Value} (denotes : Denotes members place.name name u) (below : Leads rest u w) :
      Leads (place :: rest) (.object members) w
  | element {items : List Value} {n : Nat} {rest : List Place} {u w : Value} (low : 0 < n)
      (found : items[n - 1]? = some u) (below : Leads rest u w) :
      Leads (.position n :: rest) (.list items) w

/-- A path that leads somewhere is followed there. -/
theorem Leads.follow? {v w : Value} {path : List Place} (h : Leads path v w) :
    v.follow? path = some w := by
  induction h with
  | here v => rfl
  | member denotes below ih => simp [Value.follow?, step?, denotes.found, ih]
  | @element items n rest u w low found below ih =>
    have there : n ≠ 0 := by omega
    simp [Value.follow?, step?, there, found, ih]

/-- A path goes on leading where it led, whatever is written at the end of a path apart from it. -/
theorem Leads.of_written {new v u w : Value} {p q : List Place} (h : Leads q v u)
    (written : Written new p v w) (apart : Apart p q) : Leads q w u := by
  induction h generalizing p w with
  | here v => exact absurd apart (not_apart_nil_right p)
  | @member members name place rest u' u denotes below ih =>
    cases written with
    | here => exact absurd apart (not_apart_nil_left _)
    | @member _ inner members' place' rest' target below' =>
      cases target
      by_cases same : storedName members place'.name = name
      · -- Both paths go through this member, and part further down.
        subst same
        have folded : place'.folded = place.folded := by
          have left := Text.sameName_iff.mp (sameName_storedName members place'.name)
          have right := Text.sameName_iff.mp (sameName_of_findMember? denotes.found)
          exact left.symm.trans right
        rw [getD_step?_of_object rfl, lookup_of_findMember? denotes.found] at below'
        exact .member denotes.insert_self (ih below' (apart.tail folded))
      · exact .member (denotes.insert_of_ne same) below
    | element target => cases target
  | @element items n rest u' u low found below ih =>
    cases written with
    | here => exact absurd apart (not_apart_nil_left _)
    | member target => cases target
    | @element _ inner items' n' rest' target low' high below' =>
      cases target
      by_cases same : n = n'
      · subst same
        rw [getD_step?_of_list low' rfl, List.getD_eq_getElem?_getD, found] at below'
        refine .element low ?_ (ih below' (apart.tail rfl))
        rw [getElem?_element low' high, if_pos rfl]
      · refine .element low ?_ below
        rw [getElem?_element low' high, if_neg (by omega), found]

end Value

end GoalScript
