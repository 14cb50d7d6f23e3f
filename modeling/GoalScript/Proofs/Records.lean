import GoalScript.Json.Record
import GoalScript.Proofs.Tables
import Mathlib.Data.List.Nodup

namespace GoalScript.Json

theorem normalItems_eq (items : List Json) : normalItems items = items.map normal := by
  induction items with
  | nil => rfl
  | cons json rest ih => rw [normalItems, ih, List.map_cons]

theorem normalMembers_eq (members : List (String × Json)) :
    normalMembers members = Table.mapValues normal members := by
  induction members with
  | nil => rfl
  | cons m rest ih => rw [normalMembers, ih, Table.mapValues, Table.mapValues, List.map_cons]

mutual

/-- What has repeated names resolved has none left. -/
theorem normal_normal : (json : Json) → json.normal.normal = json.normal
  | .float x => by
    rw [normal]
    split
    · rename_i finite
      rw [normal, if_pos finite]
    · rfl
  | .array items => by rw [normal, normal, normalItems_normalItems items]
  | .object members => by
    have sorted := Table.sorted_ofList (normalMembers members)
    have again := normalMembers_normalMembers members
    rw [normalMembers_eq (normalMembers members), Table.mapValues] at again
    rw [normal, normal, normalMembers_eq (Table.ofList _), Table.mapValues_ofList, again,
      sorted.ofList_eq]
  | .null | .bool _ | .int _ | .text _ => rfl

theorem normalItems_normalItems :
    (items : List Json) → normalItems (normalItems items) = normalItems items
  | [] => rfl
  | json :: rest => by
    simp only [normalItems, normal_normal json, normalItems_normalItems rest]

theorem normalMembers_normalMembers :
    (members : List (String × Json)) → normalMembers (normalMembers members) = normalMembers members
  | [] => rfl
  | (name, json) :: rest => by
    simp only [normalMembers, normal_normal json, normalMembers_normalMembers rest]

end

/-- What meets the condition is read back as it was written, and nothing else is ever read. -/
structure Form {α : Type} (write : α → Json) (read : Json → Option α) (valid : α → Prop) :
    Prop where
  back : ∀ a, valid a → read (write a) = some a
  valid_of_read : ∀ json a, read json = some a → valid a

variable {α : Type} {write : α → Json} {read : Json → Option α} {valid : α → Prop} {a : α}

theorem Form.read_write_iff (form : Form write read valid) :
    read (write a) = some a ↔ valid a :=
  ⟨form.valid_of_read _ a, form.back a⟩

theorem form_text : Form .text asText fun _ => True := ⟨fun _ _ => rfl, fun _ _ _ => trivial⟩

theorem form_bool : Form .bool asBool fun _ => True := ⟨fun _ _ => rfl, fun _ _ _ => trivial⟩

theorem form_nat (bound : Nat) : Form .ofNat (asNat bound) (· < bound) where
  back n small := by
    change (if n < bound then some n else none) = some n
    exact if_pos small
  valid_of_read json n h := by
    unfold asNat at h
    split at h
    · split at h
      · cases h
        assumption
      · cases h
    · cases h

theorem form_data : Form id asJson fun json => json.normal = json where
  back json normal := congrArg some normal
  valid_of_read json a h := by
    cases h
    exact normal_normal json

theorem form_word {word : α → String} {ofWord? : String → Option α}
    (known : ∀ a, ofWord? (word a) = some a) :
    Form (fun a => .text (word a)) (asWord ofWord?) fun _ => True :=
  ⟨fun a _ => known a, fun _ _ _ => trivial⟩

theorem mapM_map {β : Type} {f : α → β} {g : β → Option α} {as : List α}
    (each : ∀ a ∈ as, g (f a) = some a) : (as.map f).mapM g = some as := by
  induction as with
  | nil => rfl
  | cons a as ih =>
    obtain ⟨first, later⟩ := List.forall_mem_cons.mp each
    simp [List.mapM_cons, first, ih later]

theorem exists_of_mapM {α β : Type} {f : α → Option β} {as : List α} {bs : List β} {b : β}
    (h : as.mapM f = some bs) (mem : b ∈ bs) : ∃ a, f a = some b := by
  induction as generalizing bs with
  | nil =>
    cases h
    cases mem
  | cons a as ih =>
    rw [List.mapM_cons] at h
    obtain ⟨first, one, h⟩ := Option.bind_eq_some_iff.mp h
    obtain ⟨rest, later, h⟩ := Option.bind_eq_some_iff.mp h
    cases h
    rcases List.mem_cons.mp mem with rfl | mem
    · exact ⟨a, one⟩
    · exact ih later mem

theorem Form.list (form : Form write read valid) :
    Form (fun as => .array (as.map write)) (asList read) fun as => ∀ a ∈ as, valid a where
  back items all := mapM_map fun a mem => form.back a (all a mem)
  valid_of_read json items h a mem := by
    unfold asList at h
    split at h
    · obtain ⟨json, one⟩ := exists_of_mapM h mem
      exact form.valid_of_read json a one
    · cases h

theorem form_table : Form .object (asTable asJson) fun t =>
    Table.Sorted t ∧ ∀ entry ∈ t, entry.2.normal = entry.2 where
  back t := by
    rintro ⟨sorted, all⟩
    have each : ∀ entry ∈ t, (asJson entry.2).map (entry.1, ·) = some entry := by
      intro entry mem
      rw [asJson, all entry mem]
      rfl
    have whole := mapM_map (f := id) (g := fun m : String × Json => (asJson m.2).map (m.1, ·)) each
    rw [List.map_id_fun, id_eq] at whole
    rw [asTable, whole, Option.map_some, sorted.ofList_eq]
  valid_of_read json t h := by
    unfold asTable at h
    split at h
    · obtain ⟨entries, listed, rfl⟩ := Option.map_eq_some_iff.mp h
      refine ⟨Table.sorted_ofList entries, fun entry mem => ?_⟩
      obtain ⟨m, one⟩ := exists_of_mapM listed (Table.mem_of_mem_ofList mem)
      cases one
      exact normal_normal m.2
    · cases h

namespace Fields

def written (entries : List (String × Option Json)) : Fields :=
  entries.flatMap fun entry => present entry.1 entry.2

def unlessEmpty (items : List Json) : Option Json :=
  if items.isEmpty then none else some (.array items)

variable {entries : List (String × Option Json)} {fields : Fields} {name : String}

theorem nonempty_eq (name : String) (items : List Json) :
    Fields.nonempty name items = present name (unlessEmpty items) := by
  unfold Fields.nonempty unlessEmpty
  split <;> rfl

theorem written_nil : written [] = [] := rfl

theorem written_cons (entry : String × Option Json) (rest : List (String × Option Json)) :
    written (entry :: rest) = present entry.1 entry.2 ++ written rest := rfl

theorem names_written : ((written entries).map Prod.fst).Sublist (entries.map Prod.fst) := by
  induction entries with
  | nil => exact .slnil
  | cons entry rest ih =>
    obtain ⟨name, _ | json⟩ := entry
    · exact ih.cons name
    · exact ih.cons_cons name

/-- A field has what was written under its name. -/
theorem lookup_written {value : Option Json} (distinct : (entries.map Prod.fst).Nodup)
    (mem : (name, value) ∈ entries) : (written entries).lookup name = value := by
  induction entries with
  | nil => cases mem
  | cons entry rest ih =>
    obtain ⟨absent, distinct⟩ := List.nodup_cons.mp distinct
    rw [written_cons, List.lookup_append]
    rcases List.mem_cons.mp mem with rfl | mem
    · have later : (written rest).lookup name = none :=
        Table.get?_eq_none_iff.mpr fun there => absent (names_written.subset there)
      rw [later, Option.or_none]
      cases value <;> simp [present]
    · have other : name ≠ entry.1 := by
        rintro rfl
        exact absent (List.mem_map.mpr ⟨_, mem, rfl⟩)
      have first : (present entry.1 entry.2).lookup name = none := by
        unfold present
        split <;> simp [List.lookup_cons, beq_eq_false_iff_ne.mpr other]
      rw [first, Option.none_or, ih distinct mem]

/-- A record that was written is read as its fields. -/
theorem fields?_written (distinct : (entries.map Prod.fst).Nodup) (names : List String) :
    fields? names (.object (written entries)) = some (written entries) := by
  have nodup := names_written.nodup distinct
  have once (name : String) : ((written entries).filter fun m => m.1 == name).length ≤ 1 := by
    have counted := List.nodup_iff_count_le_one.mp nodup name
    rwa [List.count, List.countP_map, List.countP_eq_length_filter] at counted
  rw [fields?, if_pos (List.all_eq_true.mpr fun name _ => decide_eq_true (once name))]

/-- A field that has to be there is read back. -/
theorem required_written (form : Form write read valid)
    (distinct : (entries.map Prod.fst).Nodup) (i : Nat)
    (there : entries[i]? = some (name, some (write a)))
    (h : valid a) : (written entries).required name read = some a := by
  rw [required, lookup_written distinct (List.mem_of_getElem? there)]
  exact form.back a h

/-- A field with a default is read back. -/
theorem defaulted_written {default : α} (form : Form write read valid)
    (distinct : (entries.map Prod.fst).Nodup) (i : Nat)
    (there : entries[i]? = some (name, some (write a)))
    (h : valid a) : (written entries).defaulted name default read = some a := by
  rw [defaulted, lookup_written distinct (List.mem_of_getElem? there)]
  exact form.back a h

theorem items_written {as : List α} (form : Form write read valid)
    (distinct : (entries.map Prod.fst).Nodup)
    (i : Nat) (there : entries[i]? = some (name, unlessEmpty (as.map write)))
    (h : ∀ a ∈ as, valid a) : (written entries).defaulted name [] (asList read) = some as := by
  rw [defaulted, lookup_written distinct (List.mem_of_getElem? there)]
  cases as with
  | nil => rfl
  | cons a as => exact form.list.back (a :: as) h

theorem optional_eq_some (form : Form write read valid) (never : write a ≠ .null) (h : valid a)
    (found : fields.lookup name = some (write a)) : fields.optional name read = some (some a) := by
  unfold optional
  split
  · rename_i absent
    cases absent.symm.trans found
  · rename_i null
    exact absurd (Option.some.inj (null.symm.trans found)).symm never
  · rename_i json present
    obtain rfl := Option.some.inj (present.symm.trans found)
    rw [form.back a h, Option.map_some]

/-- A field that may be absent is read back. -/
theorem optional_written {value : Option α} (form : Form write read valid)
    (never : ∀ a, write a ≠ .null) (distinct : (entries.map Prod.fst).Nodup) (i : Nat)
    (there : entries[i]? = some (name, value.map write)) (h : ∀ a ∈ value, valid a) :
    (written entries).optional name read = some value := by
  have found := lookup_written distinct (List.mem_of_getElem? there)
  cases value with
  | none =>
    rw [optional, found]
    rfl
  | some a => exact optional_eq_some form (never a) (h a rfl) found

/-- What is absent may also be written as null. -/
theorem nullable_written {value : Option α} (form : Form write read valid)
    (never : ∀ a, write a ≠ .null) (distinct : (entries.map Prod.fst).Nodup) (i : Nat)
    (there : entries[i]? = some (name, some ((value.map write).getD .null)))
    (h : ∀ a ∈ value, valid a) : (written entries).optional name read = some value := by
  have found := lookup_written distinct (List.mem_of_getElem? there)
  cases value with
  | none =>
    rw [optional, found]
    rfl
  | some a => exact optional_eq_some form (never a) (h a rfl) found

theorem valid_of_required (form : Form write read valid)
    (h : fields.required name read = some a) : valid a := by
  obtain ⟨json, -, one⟩ := Option.bind_eq_some_iff.mp h
  exact form.valid_of_read json a one

theorem valid_of_defaulted {default : α} (form : Form write read valid) (absent : valid default)
    (h : fields.defaulted name default read = some a) : valid a := by
  unfold defaulted at h
  split at h
  · cases h
    exact absent
  · exact form.valid_of_read _ a h

theorem valid_of_optional {value : Option α} (form : Form write read valid)
    (h : fields.optional name read = some value) : ∀ a ∈ value, valid a := by
  unfold optional at h
  split at h
  · cases h
    exact nofun
  · cases h
    exact nofun
  · obtain ⟨b, one, rfl⟩ := Option.map_eq_some_iff.mp h
    rintro a ⟨⟩
    exact form.valid_of_read _ _ one

end Fields

end GoalScript.Json
