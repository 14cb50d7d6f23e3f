import GoalScript.Proofs.Exactness
import GoalScript.Proofs.Records
import GoalScript.Value.Json

namespace GoalScript

namespace Number

variable {x : Float}

def unsignedZero (x : Float) : Float := if x = -0.0 then 0.0 else x

end Number

namespace Value

open Number

variable {x : Float} {v : Value} {json : Json}

theorem numberToJson_ofInt {i : Int} (small : i.natAbs < 9000000000000000) :
    numberToJson (Float.ofInt i) = .int i := by
  have fits : i.natAbs < 2 ^ 53 := Nat.lt_trans small (by decide)
  rw [numberToJson, isWhole_ofInt fits, decide_eq_true ((abs_ofInt_lt fits).mpr small),
    truncated_ofInt fits]
  rfl

theorem numberToJson_negative_zero : numberToJson (-0.0) = .int 0 := by
  have whole : isWhole (-0.0) = true := by decide +kernel
  have small : (-0.0 : Float).abs < 9.0e15 := by decide +kernel
  have truncated : truncated? (-0.0) = some 0 := by decide +kernel
  rw [numberToJson, whole, decide_eq_true small, truncated]
  rfl

/-- All other finite numbers stay binary fractions. -/
theorem numberToJson_of_finite (finite : isFinite x = true)
    (other : ¬ (isWhole x = true ∧ x.abs < 9.0e15)) : numberToJson x = .float x := by
  have large : (isWhole x && decide (x.abs < 9.0e15)) = false := by
    rw [← Bool.not_eq_true, Bool.and_eq_true, decide_eq_true_iff]
    exact other
  rw [numberToJson, large, finite]
  rfl

/-- A finite number is read back but for the sign of a zero. -/
theorem ofJson_numberToJson (finite : isFinite x = true) :
    ofJson (numberToJson x) = .number (unsignedZero x) := by
  by_cases small : isWhole x = true ∧ x.abs < 9.0e15
  · rcases exists_int_of_whole small.1 small.2 with rfl | ⟨i, bounded, rfl⟩
    · rw [numberToJson_negative_zero, ofJson, unsignedZero, if_pos rfl]
      rfl
    · have signed := ofInt_ne_negative_zero (Nat.lt_trans bounded (by decide))
      rw [numberToJson_ofInt bounded, ofJson, unsignedZero, if_neg signed]
  · have signed : x ≠ -0.0 := by
      rintro rfl
      exact small ⟨by decide +kernel, by decide +kernel⟩
    rw [numberToJson_of_finite finite small, ofJson, unsignedZero, if_neg signed]

theorem membersToJson_eq (members : List (String × Value)) :
    membersToJson members = Table.mapValues toJson members := by
  induction members with
  | nil => rfl
  | cons m rest ih => rw [membersToJson, ih, Table.mapValues, Table.mapValues, List.map_cons]

theorem itemsToJson_eq (items : List Value) : itemsToJson items = items.map toJson := by
  induction items with
  | nil => rfl
  | cons v rest ih => rw [itemsToJson, ih, List.map_cons]

theorem membersOfJson_eq (members : List (String × Json)) :
    membersOfJson members = Table.mapValues ofJson members := by
  induction members with
  | nil => rfl
  | cons m rest ih => rw [membersOfJson, ih, Table.mapValues, Table.mapValues, List.map_cons]

theorem itemsOfJson_eq (items : List Json) : itemsOfJson items = items.map ofJson := by
  induction items with
  | nil => rfl
  | cons json rest ih => rw [itemsOfJson, ih, List.map_cons]

mutual

/-- The value with no sign on a zero, at any depth. -/
def unsigned : Value → Value
  | .number x => .number (unsignedZero x)
  | .list items => .list (unsignedItems items)
  | .object members => .object (unsignedMembers members)
  | v => v

def unsignedItems : List Value → List Value
  | [] => []
  | v :: rest => unsigned v :: unsignedItems rest

def unsignedMembers : List (String × Value) → List (String × Value)
  | [] => []
  | (name, v) :: rest => (name, unsigned v) :: unsignedMembers rest

end

theorem unsignedItems_eq (items : List Value) : unsignedItems items = items.map unsigned := by
  induction items with
  | nil => rfl
  | cons v rest ih => rw [unsignedItems, ih, List.map_cons]

theorem unsignedMembers_eq (members : List (String × Value)) :
    unsignedMembers members = Table.mapValues unsigned members := by
  induction members with
  | nil => rfl
  | cons m rest ih => rw [unsignedMembers, ih, Table.mapValues, Table.mapValues, List.map_cons]

/-- The value holds no dates and finite numbers only, and objects have their members sorted. -/
inductive IsPlain : Value → Prop where
  | null : IsPlain .null
  | bool (b : Bool) : IsPlain (.bool b)
  | number {x : Float} (finite : isFinite x = true) : IsPlain (.number x)
  | text (s : String) : IsPlain (.text s)
  | list {items : List Value} (all : ∀ v ∈ items, IsPlain v) : IsPlain (.list items)
  | object {members : List (String × Value)} (sorted : Table.Sorted members)
    (all : ∀ m ∈ members, IsPlain m.2) : IsPlain (.object members)

/-- What is written of a value is read back, at any depth, but for the signs of zeros. -/
theorem IsPlain.ofJson_toJson (plain : v.IsPlain) : ofJson v.toJson = v.unsigned := by
  induction plain with
  | null | bool | text => rfl
  | number finite => rw [toJson, ofJson_numberToJson finite, unsigned]
  | list all ih =>
    rw [toJson, ofJson, unsigned, itemsToJson_eq, itemsOfJson_eq, unsignedItems_eq, List.map_map]
    exact congrArg Value.list (List.map_congr_left ih)
  | @object members sorted all ih =>
    have each : Table.mapValues ofJson (Table.mapValues toJson members) =
        Table.mapValues unsigned members := by
      simp only [Table.mapValues, List.map_map]
      exact List.map_congr_left fun m mem => congrArg (Prod.mk m.1) (ih m mem)
    have sorted' : Table.Sorted (Table.mapValues unsigned members) := by
      rw [Table.Sorted, Table.keys_mapValues]
      exact sorted
    rw [toJson, ofJson, unsigned, membersToJson_eq, membersOfJson_eq, unsignedMembers_eq, each,
      sorted'.ofList_eq]

end Value

namespace Json

open Number

/-- Numbers of the data are integers of less than sixteen digits or have a fraction. -/
inductive IsFaithful : Json → Prop where
  | null : IsFaithful .null
  | bool (b : Bool) : IsFaithful (.bool b)
  | int {i : Int} (small : i.natAbs < 9000000000000000) : IsFaithful (.int i)
  | float {x : Float} (finite : isFinite x = true) (fraction : isWhole x = false) :
    IsFaithful (.float x)
  | text (s : String) : IsFaithful (.text s)
  | array {items : List Json} (all : ∀ json ∈ items, IsFaithful json) : IsFaithful (.array items)
  | object {members : List (String × Json)} (all : ∀ m ∈ members, IsFaithful m.2) :
    IsFaithful (.object members)

/-- Objects have their members sorted, no name coming twice, at any depth. -/
inductive IsOrdered : Json → Prop where
  | null : IsOrdered .null
  | bool (b : Bool) : IsOrdered (.bool b)
  | int (i : Int) : IsOrdered (.int i)
  | float (x : Float) : IsOrdered (.float x)
  | text (s : String) : IsOrdered (.text s)
  | array {items : List Json} (all : ∀ json ∈ items, IsOrdered json) : IsOrdered (.array items)
  | object {members : List (String × Json)} (sorted : Table.Sorted members)
    (all : ∀ m ∈ members, IsOrdered m.2) : IsOrdered (.object members)

variable {json : Json}

/-- What is read of data is written back, its members sorted. -/
theorem IsFaithful.toJson_ofJson (faithful : json.IsFaithful) :
    (Value.ofJson json).toJson = json.normal := by
  induction faithful with
  | null | bool | text => rfl
  | int small => exact Value.numberToJson_ofInt small
  | float finite fraction =>
    rw [normal, if_pos finite]
    exact Value.numberToJson_of_finite finite fun small => Bool.false_ne_true (fraction ▸ small.1)
  | array all ih =>
    rw [Value.ofJson, Value.toJson, normal, Value.itemsOfJson_eq, Value.itemsToJson_eq,
      normalItems_eq, List.map_map]
    exact congrArg Json.array (List.map_congr_left ih)
  | @object members all ih =>
    have each : (Table.mapValues Value.ofJson members).map (fun m => (m.1, m.2.toJson)) =
        Table.mapValues normal members := by
      simp only [Table.mapValues, List.map_map]
      exact List.map_congr_left fun m mem => congrArg (Prod.mk m.1) (ih m mem)
    rw [Value.ofJson, Value.toJson, normal, Value.membersOfJson_eq, Value.membersToJson_eq,
      normalMembers_eq, Table.mapValues_ofList, each]

theorem IsFaithful.normal_eq (faithful : json.IsFaithful) (ordered : json.IsOrdered) :
    json.normal = json := by
  induction faithful with
  | null | bool | int | text => rfl
  | float finite => rw [normal, if_pos finite]
  | @array items _ ih =>
    cases ordered with
    | array all =>
      have each : items.map normal = items.map id :=
        List.map_congr_left fun json mem => ih json mem (all json mem)
      rw [normal, normalItems_eq, each, List.map_id]
  | @object members _ ih =>
    cases ordered with
    | object sorted all =>
      have each : Table.mapValues normal members = members.map id :=
        List.map_congr_left fun m mem => congrArg (Prod.mk m.1) (ih m mem (all m mem))
      rw [normal, normalMembers_eq, each, List.map_id, sorted.ofList_eq]

end Json

/-- A value comes back from the data that is made of it but for the sign of zeros, and data comes
back from the value that is made of it but for the order of members. -/
theorem values_and_data_correspond :
    (∀ v : Value, v.IsPlain → Value.ofJson v.toJson = v.unsigned) ∧
    ∀ json : Json, json.IsFaithful → (Value.ofJson json).toJson = json.normal ∧
      (json.IsOrdered → (Value.ofJson json).toJson = json) :=
  ⟨fun _ plain => plain.ofJson_toJson, fun _ faithful => ⟨faithful.toJson_ofJson,
    fun ordered => faithful.toJson_ofJson.trans (faithful.normal_eq ordered)⟩⟩

/-- A negative zero and a large number inside containers, and members out of order. -/
theorem values_and_data_correspond_nested :
    let v : Value := .object [("huge", .number 1e20), ("list", .list [.number (-0.0), .null])]
    let json : Json := .object [("last", .array [.int (-8999999999999999)]), ("first", .float 0.1)]
    Value.ofJson v.toJson =
      .object [("huge", .number 1e20), ("list", .list [.number 0.0, .null])] ∧
    (Value.ofJson json).toJson =
      .object [("first", .float 0.1), ("last", .array [.int (-8999999999999999)])] := by
  intro v json
  have sorted : ["huge", "list"].Pairwise (· < ·) := by decide +kernel
  have plain : v.IsPlain := by
    refine .object sorted (List.forall_mem_cons.mpr ⟨?_, List.forall_mem_singleton.mpr ?_⟩)
    · exact .number (by decide +kernel)
    · refine .list (List.forall_mem_cons.mpr ⟨?_, List.forall_mem_singleton.mpr .null⟩)
      exact .number (by decide +kernel)
  have faithful : json.IsFaithful := by
    refine .object (List.forall_mem_cons.mpr ⟨?_, List.forall_mem_singleton.mpr ?_⟩)
    · exact .array (List.forall_mem_singleton.mpr (.int (by decide)))
    · exact .float (by decide +kernel) (by decide +kernel)
  have unsigned : v.unsigned =
      .object [("huge", .number 1e20), ("list", .list [.number 0.0, .null])] := by
    have huge : Number.unsignedZero 1e20 = 1e20 := by decide +kernel
    have zero : Number.unsignedZero (-0.0) = 0.0 := if_pos rfl
    simp only [v, Value.unsigned, Value.unsignedMembers, Value.unsignedItems, huge, zero]
  have normal : json.normal =
      .object [("first", .float 0.1), ("last", .array [.int (-8999999999999999)])] := by
    have finite : Number.isFinite 0.1 = true := by decide +kernel
    simp only [json, Json.normal, Json.normalMembers, Json.normalItems, finite, if_true]
    rfl
  exact ⟨(values_and_data_correspond.1 v plain).trans unsigned,
    (values_and_data_correspond.2 json faithful).1.trans normal⟩

end GoalScript
