import GoalScript.Table

namespace GoalScript

namespace Table

variable {α β : Type} {t : Table α} {name : String} {u v : α}

theorem get?_cons (rest : Table α) (key other : String) (v : α) :
    get? ((key, v) :: rest) other = if other = key then some v else rest.get? other := by
  by_cases h : other = key
  · simp [get?, h]
  · simp [get?, List.lookup_cons, beq_eq_false_iff_ne.mpr h, h]

/-- The entry that was put in is found under its key, and the others are where they were. -/
theorem get?_insert (t : Table α) (key other : String) (v : α) :
    (t.insert key v).get? other = if other = key then some v else t.get? other := by
  induction t with
  | nil => exact get?_cons [] key other v
  | cons entry rest ih =>
    obtain ⟨k, u⟩ := entry
    unfold insert
    split
    · exact get?_cons _ _ _ _
    · split
      · rename_i hk
        subst hk
        by_cases ho : other = key <;> simp [get?_cons, ho]
      · rename_i hk
        by_cases ho : other = k
        · have hne : k ≠ key := fun h => hk h.symm
          simp [get?_cons, ho, hne]
        · simp [get?_cons, ho, ih]

theorem mem_insert {key : String} {entry : String × α} (h : entry ∈ t.insert key v) :
    entry = (key, v) ∨ entry ∈ t := by
  induction t with
  | nil => exact .inl (by simpa [insert] using h)
  | cons first rest ih =>
    obtain ⟨k, u⟩ := first
    simp only [insert] at h
    split at h
    · exact List.mem_cons.mp h
    · split at h
      · rcases List.mem_cons.mp h with he | hm
        · exact .inl he
        · exact .inr (List.mem_cons_of_mem _ hm)
      · rcases List.mem_cons.mp h with he | hm
        · exact .inr (he ▸ List.mem_cons_self)
        · exact (ih hm).imp_right (List.mem_cons_of_mem _)

section

variable {p : String → Bool}

/-- An entry that is not looked for may come and go. -/
theorem find?_insert_of_not (h : p name = false) :
    (t.insert name v).find? (fun m => p m.1) = t.find? (fun m => p m.1) := by
  induction t with
  | nil => simp [insert, h]
  | cons entry rest ih =>
    obtain ⟨k, w⟩ := entry
    simp only [insert]
    split
    · simp [h]
    · split
      · rename_i hk
        subst hk
        simp [h]
      · simp [List.find?_cons, ih]

/-- What was found is replaced where it was found. -/
theorem find?_insert_of_found (h : t.find? (fun m => p m.1) = some (name, u)) :
    (t.insert name v).find? (fun m => p m.1) = some (name, v) := by
  have hp : p name = true := by simpa using List.find?_some h
  induction t with
  | nil => simp at h
  | cons entry rest ih =>
    obtain ⟨k, w⟩ := entry
    simp only [insert]
    split
    · simp [hp]
    · split
      · simp [hp]
      · rename_i hk
        cases other : p k with
        | true =>
          simp only [List.find?_cons, other, Option.some.injEq, Prod.mk.injEq] at h
          exact absurd h.1.symm hk
        | false =>
          simp only [List.find?_cons, other] at h ⊢
          exact ih h

/-- The first entry under the name of the one that was found is the one that was found. -/
theorem lookup_of_find? (h : t.find? (fun m => p m.1) = some (name, u)) :
    t.lookup name = some u := by
  have hp : p name = true := by simpa using List.find?_some h
  induction t with
  | nil => simp at h
  | cons entry rest ih =>
    obtain ⟨k, w⟩ := entry
    by_cases hk : name = k
    · subst hk
      simpa [hp] using h
    · have hk' : (name == k) = false := by simpa using hk
      cases other : p k with
      | true =>
        simp only [List.find?_cons, other, Option.some.injEq, Prod.mk.injEq] at h
        exact absurd h.1.symm hk
      | false =>
        simp only [List.find?_cons, other] at h
        simp [List.lookup_cons, hk', ih h]

end

theorem find?_insert_self : (t.insert name v).find? (fun m => m.1 == name) = some (name, v) := by
  induction t with
  | nil => simp [insert]
  | cons entry rest ih =>
    obtain ⟨k, w⟩ := entry
    simp only [insert]
    split
    · simp
    · split
      · simp
      · rename_i hk
        have other : (k == name) = false := by simpa using fun h => hk h.symm
        simp [other, ih]

theorem get?_erase (t : Table α) (key other : String) :
    get? (t.erase key) other = if other = key then none else t.get? other := by
  induction t with
  | nil => simp [erase, get?]
  | cons entry rest ih =>
    obtain ⟨k, u⟩ := entry
    by_cases hk : k = key
    · have gone : erase ((k, u) :: rest) key = erase rest key := by simp [erase, hk]
      rw [gone, ih]
      by_cases ho : other = key
      · simp [ho]
      · simp [get?_cons, ho, hk]
    · have kept : erase ((k, u) :: rest) key = (k, u) :: erase rest key := by simp [erase, hk]
      rw [kept, get?_cons, get?_cons, ih]
      by_cases ho : other = k
      · simp [ho, hk]
      · simp [ho]

theorem insert_insert (t : Table α) (key : String) (u v : α) :
    (t.insert key u).insert key v = t.insert key v := by
  induction t with
  | nil => simp [insert]
  | cons entry rest ih =>
    obtain ⟨k, w⟩ := entry
    simp only [insert]
    split
    · simp [insert]
    · split
      · simp [insert]
      · rename_i before differs
        simp [insert, before, differs, ih]

theorem insert_cons_of_lt {key k : String} (rest : Table α) (h : key < k) :
    insert ((k, u) :: rest) key v = (key, v) :: (k, u) :: rest := by
  simp [insert, h]

theorem insert_cons_self (rest : Table α) (key : String) :
    insert ((key, u) :: rest) key v = (key, v) :: rest := by
  rw [insert, if_neg (String.lt_irrefl key), if_pos rfl]

theorem insert_cons_of_gt {key k : String} (rest : Table α) (h : k < key) :
    insert ((k, u) :: rest) key v = (k, u) :: insert rest key v := by
  have differs : key ≠ k := fun same => String.lt_irrefl k (same ▸ h)
  simp [insert, String.lt_asymm h, differs]

/-- Entries with different keys may be put in in any order, also into a table that is not sorted. -/
theorem insert_comm {key other : String} (t : Table α) (u v : α) (h : key ≠ other) :
    (t.insert key u).insert other v = (t.insert other v).insert key u := by
  have ordered {key other : String} (u v : α) (h : key < other) :
      (t.insert key u).insert other v = (t.insert other v).insert key u := by
    induction t with
    | nil => rw [insert, insert, insert_cons_of_gt _ h, insert_cons_of_lt _ h, insert]
    | cons entry rest ih =>
      obtain ⟨k, w⟩ := entry
      rcases Std.lt_trichotomy other k with before | rfl | after
      · have first := String.lt_trans h before
        rw [insert_cons_of_lt _ first, insert_cons_of_gt _ h, insert_cons_of_lt _ before,
          insert_cons_of_lt _ h]
      · rw [insert_cons_of_lt _ h, insert_cons_of_gt _ h, insert_cons_self, insert_cons_of_lt _ h]
      rw [insert_cons_of_gt _ after]
      rcases Std.lt_trichotomy key k with before | rfl | after'
      · rw [insert_cons_of_lt _ before, insert_cons_of_gt _ h, insert_cons_of_gt _ after,
          insert_cons_of_lt _ before]
      · rw [insert_cons_self, insert_cons_of_gt _ after, insert_cons_self]
      · rw [insert_cons_of_gt _ after', insert_cons_of_gt _ after, ih, insert_cons_of_gt _ after']
  rcases Std.lt_trichotomy key other with before | same | after
  · exact ordered u v before
  · exact absurd same h
  · exact (ordered v u after).symm

theorem erase_insert (t : Table α) (key : String) (v : α) :
    (t.insert key v).erase key = t.erase key := by
  induction t with
  | nil => simp [insert, erase]
  | cons entry rest ih =>
    obtain ⟨k, w⟩ := entry
    simp only [erase] at ih
    simp only [insert, erase]
    split
    · simp
    · split
      · rename_i same
        simp [same]
      · simp [List.filter_cons, ih]

theorem mem_keys_insert {key other : String} :
    other ∈ (t.insert key v).keys ↔ other = key ∨ other ∈ t.keys := by
  induction t with
  | nil => simp [insert, keys]
  | cons entry rest ih =>
    obtain ⟨k, u⟩ := entry
    simp only [keys] at ih
    simp only [insert, keys]
    split
    · simp
    · split
      · rename_i same
        simp [same]
      · simp only [List.map_cons, List.mem_cons, ih]
        exact or_left_comm

theorem sorted_nil : Sorted ([] : Table α) := .nil

/-- A table stays sorted. -/
theorem Sorted.insert (h : t.Sorted) (key : String) (v : α) : (t.insert key v).Sorted := by
  induction t with
  | nil => simp [Sorted, keys, Table.insert]
  | cons entry rest ih =>
    obtain ⟨k, u⟩ := entry
    obtain ⟨first, later⟩ := List.pairwise_cons.mp h
    simp only [Table.insert]
    split
    · rename_i before
      refine List.pairwise_cons.mpr ⟨fun other member => ?_, h⟩
      rcases List.mem_cons.mp member with rfl | member
      · exact before
      · exact String.lt_trans before (first other member)
    · rename_i notBefore
      split
      · rename_i same
        subst same
        exact h
      · rename_i differs
        have after : k < key := Std.lt_of_le_of_ne (String.not_lt.mp notBefore) (Ne.symm differs)
        refine List.pairwise_cons.mpr ⟨fun other member => ?_, ih later⟩
        rcases mem_keys_insert.mp member with rfl | member
        · exact after
        · exact first other member

/-- Whatever its entries, a table is sorted. -/
theorem sorted_ofList (entries : List (String × α)) : (ofList entries).Sorted :=
  List.foldlRecOn entries _ .nil fun _ sorted entry _ => sorted.insert entry.1 entry.2

theorem mem_of_mem_ofList {entries : List (String × α)} {entry : String × α}
    (mem : entry ∈ ofList entries) : entry ∈ entries := by
  refine List.foldlRecOn (motive := fun t => ∀ e ∈ t, e ∈ entries) entries _
    (List.forall_mem_nil _) ?_ entry mem
  intro t kept added there e mem
  rcases mem_insert mem with rfl | mem
  · exact there
  · exact kept e mem

/-- An entry whose key comes after all others goes to the end. -/
theorem insert_of_lt {key : String} (after : ∀ k ∈ t.keys, k < key) :
    t.insert key v = t ++ [(key, v)] := by
  induction t with
  | nil => rfl
  | cons entry rest ih =>
    obtain ⟨k, u⟩ := entry
    obtain ⟨first, later⟩ := List.forall_mem_cons.mp after
    rw [insert, if_neg (String.lt_asymm first), if_neg (Ne.symm (String.ne_of_lt first)), ih later]
    rfl

/-- Sorted entries are a table as they are. -/
theorem Sorted.ofList_eq (h : t.Sorted) : ofList t = t := by
  have whole (done rest : Table α) (h : Sorted (done ++ rest)) :
      rest.foldl (fun t entry => t.insert entry.1 entry.2) done = done ++ rest := by
    induction rest generalizing done with
    | nil => simp
    | cons entry rest ih =>
      have after : ∀ k ∈ done.keys, k < entry.1 := by
        intro k mem
        rw [Sorted, keys, List.map_append] at h
        exact (List.pairwise_append.mp h).2.2 k mem entry.1 (by simp)
      rw [List.foldl_cons, insert_of_lt after, ih _ (by simpa using h), List.append_assoc]
      rfl
  exact whole [] t h

theorem insert_mapValues (f : α → β) (t : Table α) (key : String) (v : α) :
    (t.insert key v).mapValues f = (t.mapValues f).insert key (f v) := by
  induction t with
  | nil => rfl
  | cons entry rest ih =>
    obtain ⟨k, u⟩ := entry
    simp only [mapValues] at ih
    simp only [insert, mapValues, List.map_cons]
    split
    · rfl
    · split
      · rfl
      · rw [List.map_cons, ih]

/-- Entries may be changed before or after a table is made of them. -/
theorem mapValues_ofList (f : α → β) (entries : List (String × α)) :
    (ofList entries).mapValues f = ofList (entries.map fun entry => (entry.1, f entry.2)) := by
  have each (t : Table α) :
      (entries.foldl (fun t entry => t.insert entry.1 entry.2) t).mapValues f =
        (entries.map fun entry => (entry.1, f entry.2)).foldl
          (fun t entry => t.insert entry.1 entry.2) (t.mapValues f) := by
    induction entries generalizing t with
    | nil => rfl
    | cons entry rest ih =>
      rw [List.foldl_cons, ih, insert_mapValues, List.map_cons, List.foldl_cons]
  exact each []

theorem Sorted.nodup_keys (h : t.Sorted) : t.keys.Nodup :=
  h.imp fun {a b} (before : a < b) (same : a = b) => String.lt_irrefl b (same ▸ before)

/-- In a table in which no key comes twice an entry is found by its key. -/
theorem get?_eq_some_iff (nodup : t.keys.Nodup) : t.get? name = some v ↔ (name, v) ∈ t := by
  induction t with
  | nil => simp [get?]
  | cons entry rest ih =>
    obtain ⟨k, u⟩ := entry
    obtain ⟨absent, nodup⟩ := List.nodup_cons.mp nodup
    have elsewhere : (k, v) ∉ rest := fun mem => absent (List.mem_map.mpr ⟨_, mem, rfl⟩)
    rw [get?_cons, List.mem_cons, Prod.mk.injEq]
    by_cases here : name = k
    · subst here
      simp [elsewhere, eq_comm]
    · simp [here, ih nodup]

theorem keys_mapValues {β : Type} (f : α → β) (t : Table α) : (t.mapValues f).keys = t.keys := by
  simp [keys, mapValues]

theorem get?_eq_none_iff : t.get? name = none ↔ name ∉ t.keys := by
  simp only [get?, List.lookup_eq_none_iff, bne_iff_ne, ne_eq, keys, List.mem_map, not_exists,
    not_and]
  exact ⟨fun differ entry mem same => differ entry mem same.symm,
    fun differ entry mem same => differ entry mem same.symm⟩

end Table

namespace Names

variable {names : Names} {name other : String}

theorem keys_map (names : Names) : Table.keys (names.map (·, ())) = names := by
  simp [Table.keys, Function.comp_def]

theorem mem_insert : other ∈ names.insert name ↔ other = name ∨ other ∈ names := by
  rw [insert, Table.mem_keys_insert, keys_map]

def Sorted (names : Names) : Prop := names.Pairwise (· < ·)

theorem Sorted.insert (h : names.Sorted) (name : String) : (names.insert name).Sorted := by
  have keys : Table.Sorted (names.map (·, ())) := by
    rw [Table.Sorted, keys_map]
    exact h
  exact keys.insert name ()

theorem Sorted.erase (h : names.Sorted) (name : String) : Sorted (List.erase names name) :=
  h.sublist List.erase_sublist

theorem Sorted.mem_erase (h : names.Sorted) :
    other ∈ List.erase names name ↔ other ≠ name ∧ other ∈ names := by
  have nodup : names.Nodup := h.imp fun {a b} (before : a < b) (same : a = b) =>
    String.lt_irrefl b (same ▸ before)
  exact nodup.mem_erase_iff

end Names

end GoalScript
