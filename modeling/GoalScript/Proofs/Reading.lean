import GoalScript.Proofs.Meanings
import GoalScript.Proofs.Routes
import GoalScript.Proofs.Storage

namespace GoalScript

namespace Segment

def place? : Segment → Option Place
  | .property name => some (.key name)
  | .index (.position n) => some (.position n)
  | .index (.key k) => some (.key k)
  | _ => none

/-- Where a segment leads a writer, by what words mean. -/
def placeBy (meaning : String → Resolved Value) : Segment → Option Place
  | .index (.lookup word) =>
    match meaning word with
    | .ok m => some (Store.placeOfWord word m)
    | .error _ => none
  | segment => segment.place?

theorem placeBy_of_place? {meaning : String → Resolved Value} {segment : Segment} {place : Place}
    (h : segment.place? = some place) : segment.placeBy meaning = some place := by
  cases segment with
  | index i => cases i <;> first | exact h | cases h
  | _ => exact h

/-- Where no place is plain there is a word. -/
theorem lookup_of_placeBy {meaning : String → Resolved Value} {segment : Segment} {place : Place}
    (h : segment.place? = none) (led : segment.placeBy meaning = some place) :
    ∃ word m, segment = .index (.lookup word) ∧ meaning word = .ok m ∧
      place = Store.placeOfWord word m := by
  unfold placeBy at led
  split at led
  · rename_i word
    split at led
    · rename_i m meant
      cases led
      exact ⟨word, m, rfl, meant, rfl⟩
    · cases led
  · rw [h] at led
    cases led

end Segment

namespace Plan

/-- The plan goes by properties, positions and quoted keys alone. -/
def IsDirect (plan : Plan) : Prop := ∀ segment ∈ plan.segments, segment.place?.isSome = true

instance (plan : Plan) : Decidable plan.IsDirect :=
  inferInstanceAs (Decidable (∀ segment ∈ plan.segments, segment.place?.isSome = true))

def route (plan : Plan) : List Place := plan.segments.filterMap Segment.place?

theorem IsDirect.map_place? {plan : Plan} (h : plan.IsDirect) :
    plan.segments.map Segment.place? = plan.route.map some := by
  unfold IsDirect at h
  unfold route
  generalize plan.segments = segments at h ⊢
  induction segments with
  | nil => rfl
  | cons segment rest ih =>
    obtain ⟨place, found⟩ := Option.isSome_iff_exists.mp (h segment List.mem_cons_self)
    simp [found, ih fun segment hs => h segment (List.mem_cons_of_mem _ hs)]

/-- A direct plan leads there whatever words mean. -/
theorem IsDirect.map_placeBy {plan : Plan} (h : plan.IsDirect)
    (meaning : String → Resolved Value) :
    plan.segments.map (Segment.placeBy meaning) = plan.route.map some := by
  rw [← h.map_place?]
  apply List.map_congr_left
  intro segment hs
  obtain ⟨place, found⟩ := Option.isSome_iff_exists.mp (h segment hs)
  rw [found, Segment.placeBy_of_place? found]

end Plan

namespace Store

variable {s t : Store} {plan : Plan}

theorem placeBy_of_placeOfBy {segment : Segment} {place : Place}
    (h : placeOfBy s.getValue plan segment = .ok place) :
    segment.placeBy s.getValue = some place := by
  unfold placeOfBy at h
  split at h
  · cases h
    rfl
  · cases h
    rfl
  · cases h
    rfl
  · rename_i word
    unfold Segment.placeBy
    cases meaning : s.getValue word with
    | error e =>
      rw [meaning] at h
      cases h
    | ok m =>
      rw [meaning] at h
      cases h
      simp only [meaning]
  · cases h

/-- Where a write goes is where its segments lead by what their words mean. -/
theorem map_placeBy_of_places {path : List Place} (h : s.places plan = .ok path) :
    plan.segments.map (Segment.placeBy s.getValue) = path.map some := by
  replace h := Resolved.mapM_eq_ok_iff.mp h
  generalize plan.segments = segments at h ⊢
  induction h with
  | nil => rfl
  | cons first _ ih => simp [placeBy_of_placeOfBy first, ih]

end Store

namespace Value

/-- In an object with these members the word leads a reader where it leads a writer: it stands for
itself, or it is no other member's name and, if it is written as a position, shows the digits. -/
def Mirrors (members : List (String × Value)) (word : String) (meaning : Value) : Prop :=
  meaning.isNull = true ∨
    (∀ n, Store.placeOfWord word meaning = .position n → meaning.display = toString n) ∧
      ∀ name u, findMember? members word = some (name, u) →
        name = storedName members meaning.display

/-- On the way along the segments each word leads a reader where it leads a writer. -/
def Mirrored (meaning : String → Resolved Value) : List Segment → Value → Prop
  | [], _ => True
  | segment :: rest, v =>
    (∀ word m members, segment = .index (.lookup word) → meaning word = .ok m →
      v = .object members → Mirrors members word m) ∧
    ∀ place, segment.placeBy meaning = some place →
      Mirrored meaning rest ((v.step? place).getD .null)

/-- A word that leads to a position means a whole number. -/
theorem placeOfWord_position {word : String} {m : Value} {n : Nat}
    (h : Store.placeOfWord word m = .position n) :
    ∃ x, m = .number x ∧ 1.0 ≤ x ∧ n = Number.clampedNat Number.max64 x := by
  unfold Store.placeOfWord at h
  split at h
  · cases h
  · rename_i x
    split at h
    · rename_i whole
      cases h
      simp only [Bool.and_eq_true, decide_eq_true_eq] at whole
      exact ⟨x, rfl, whole.1, rfl⟩
    · cases h
  · cases h

theorem placeOfWord_key {word k : String} {m : Value} (h : Store.placeOfWord word m = .key k)
    (some : m.isNull = false) : k = m.display := by
  unfold Store.placeOfWord at h
  split at h
  · cases some
  · split at h
    · cases h
    · cases h
      rfl
  · cases h
    rfl

/-- A word with a meaning that is its name for a writer is the name that its meaning shows. -/
theorem Mirrors.name_eq {members : List (String × Value)} {word : String} {m : Value}
    (mirrors : Mirrors members word m) (present : m.isNull = false) :
    (Store.placeOfWord word m).name = m.display := by
  obtain ⟨digits, -⟩ := mirrors.resolve_left (by simp [present])
  cases led : Store.placeOfWord word m with
  | key k => exact placeOfWord_key led present
  | position n => exact (digits n led).symm

/-- A new object has no member that the word could be the name of. -/
theorem mirrors_nil {word k : String} {m : Value} (h : Store.placeOfWord word m = .key k) :
    Mirrors [] word m := by
  refine .inr ⟨fun n led => ?_, fun name u found => by cases found⟩
  rw [h] at led
  cases led

section

variable {shown : String} {answer : String → Resolved Value}

/-- A segment that leads to something leads a reader there. -/
theorem segmentBy_of_step? {segment : Segment} {place : Place} {v u : Value}
    (leads : segment.place? = some place) (h : v.step? place = some u) :
    Store.segmentBy answer shown v segment = .ok u := by
  cases segment with
  | property name =>
    cases leads
    cases v with
    | object members =>
      have found : (object members).member? name = some u := h
      simp [Store.segmentBy, property, found]
    | _ => cases h
  | index i =>
    cases i with
    | position n =>
      cases leads
      cases v with
      | object members =>
        have found : (object members).member? (toString n) = some u := h
        change Except.ok (((object members).member? (toString n)).getD .null) = _
        rw [found]
        rfl
      | list items =>
        simp only [step?] at h
        split at h
        · cases h
        · rename_i there
          simp [Store.segmentBy, Store.indexBy, atPosition, there, h]
      | _ => cases h
    | key k =>
      cases leads
      cases v with
      | object members =>
        have found : (object members).member? k = some u := h
        simp [Store.segmentBy, Store.indexBy, atKey, found]
      | _ => cases h
    | lookup word => cases leads
  | method name args => cases leads
  | query path => cases leads

theorem segmentsBy_cons {segment : Segment} {rest : List Segment} {v u : Value}
    (first : Store.segmentBy answer shown v segment = .ok u) :
    Store.segmentsBy answer shown v (segment :: rest) =
      Store.segmentsBy answer shown u rest := by
  rw [Store.segmentsBy, first]
  rfl

/-- Segments that lead to something lead a reader there. -/
theorem segmentsBy_of_follow? {segments : List Segment} {path : List Place} {v w : Value}
    (leads : segments.map Segment.place? = path.map some) (h : v.follow? path = some w) :
    Store.segmentsBy answer shown v segments = .ok w := by
  induction segments generalizing path v with
  | nil =>
    obtain rfl : path = [] := by simpa using leads.symm
    cases h
    rfl
  | cons segment rest ih =>
    cases path with
    | nil => cases leads
    | cons place path =>
      simp only [List.map_cons, List.cons.injEq] at leads
      obtain ⟨u, here, there⟩ := Option.bind_eq_some_iff.mp h
      rw [segmentsBy_cons (segmentBy_of_step? leads.1 here)]
      exact ih leads.2 there

/-- In an object a word with a meaning is the name that its meaning shows. -/
theorem atWord_object {members : List (String × Value)} {word : String} {m : Value}
    (present : m.isNull = false) :
    (object members).atWord shown word m = (object members).atKey shown m.display := by
  cases m <;> first | rfl | cases present

/-- In an object a mirrored word leads to what has just been written under it. -/
theorem indexBy_lookup_of_mirrors {members : List (String × Value)} {word : String}
    {m inner : Value} (mirrors : Mirrors members word m)
    (means : answer word = .ok m) :
    Store.indexBy answer shown (.object (Table.insert members
      (storedName members (Store.placeOfWord word m).name) inner)) (.lookup word) = .ok inner := by
  cases absent : m.isNull with
  | true =>
    -- The word stands for itself.
    have itself : (Store.placeOfWord word m).name = word := by
      cases m <;> first | rfl | cases absent
    have found := findMember?_insert members word inner
    simp [Store.indexBy, member?, itself, found]
  | false =>
    obtain ⟨-, key⟩ := mirrors.resolve_left (by simp [absent])
    have found := findMember?_insert members m.display inner
    rw [mirrors.name_eq absent]
    cases named : findMember? (Table.insert members (storedName members m.display) inner) word with
    | some entry =>
      -- The word is a name of the member that has been written, and of no other.
      obtain ⟨name, u⟩ := entry
      have same : u = inner := by
        cases old : findMember? members word with
        | some entry =>
          have stored : storedName members word = storedName members m.display :=
            (storedName_of_found old).trans (key _ _ old)
          rw [← stored, findMember?_insert] at named
          exact (Prod.mk.inj (Option.some.inj named)).2.symm
        | none =>
          have differs := findMember?_eq_none_iff.mp old
          rcases Table.mem_insert (mem_of_findMember? named) with written | kept
          · exact (Prod.mk.inj written).2
          · have unlike := differs _ kept
            rw [sameName_of_findMember? named] at unlike
            cases unlike
      simp [Store.indexBy, member?, named, same]
    | none =>
      simp [Store.indexBy, member?, named, means, Resolved.bind_eq_ok, atWord_object absent,
        atKey, found]

/-- In a list a word that leads to an element leads a reader there. -/
theorem indexBy_lookup_of_position {items : List Value} {word : String} {m inner : Value}
    {n : Nat} (place : Store.placeOfWord word m = .position n) (low : 0 < n)
    (found : items[n - 1]? = some inner) (means : answer word = .ok m) :
    Store.indexBy answer shown (.list items) (.lookup word) = .ok inner := by
  obtain ⟨x, rfl, big, rfl⟩ := placeOfWord_position place
  have some : Number.clampedNat Number.max64 x ≠ 0 := by omega
  simp [Store.indexBy, member?, means, Resolved.bind_eq_ok, atWord, big, atPosition, some, found]

/-- A segment leads a reader to the member that has been written under it. -/
theorem segmentBy_of_inserted {meaning : String → Resolved Value} {segment : Segment}
    {place : Place} {members : List (String × Value)} {inner : Value}
    (leads : segment.placeBy meaning = some place)
    (mirrors : ∀ word m, segment = .index (.lookup word) → meaning word = .ok m →
      Mirrors members word m ∧ answer word = .ok m) :
    Store.segmentBy answer shown
      (.object (Table.insert members (storedName members place.name) inner)) segment =
        .ok inner := by
  cases direct : segment.place? with
  | some place' =>
    obtain rfl : place' = place := by
      simpa [Segment.placeBy_of_place? direct] using leads
    apply segmentBy_of_step? direct
    simp [step?, findMember?_insert]
  | none =>
    obtain ⟨word, m, rfl, meant, rfl⟩ := Segment.lookup_of_placeBy direct leads
    obtain ⟨mirrors, means⟩ := mirrors word m rfl meant
    exact indexBy_lookup_of_mirrors mirrors means

/-- A segment leads a reader to the element that has been written under it. -/
theorem segmentBy_of_element {meaning : String → Resolved Value} {segment : Segment} {n : Nat}
    {items : List Value} {inner : Value} (leads : segment.placeBy meaning = some (.position n))
    (low : 0 < n) (found : items[n - 1]? = some inner)
    (means : ∀ word m, segment = .index (.lookup word) → meaning word = .ok m →
      answer word = .ok m) :
    Store.segmentBy answer shown (.list items) segment = .ok inner := by
  cases direct : segment.place? with
  | some place =>
    obtain rfl : place = .position n := by
      simpa [Segment.placeBy_of_place? direct] using leads
    apply segmentBy_of_step? direct
    have some : n ≠ 0 := by omega
    simp only [step?, some, if_false, found]
  | none =>
    obtain ⟨word, m, rfl, meant, led⟩ := Segment.lookup_of_placeBy direct leads
    exact indexBy_lookup_of_position led.symm low found (means word m rfl meant)

/-- A new object cannot have another member of the word's name either. -/
theorem mirrors_of_opened {v m : Value} {word : String} {members : List (String × Value)}
    (target : v.opened (Store.placeOfWord word m) = .object members)
    (mirrors : v = .object members → Mirrors members word m) : Mirrors members word m := by
  unfold opened at target
  split at target
  · cases led : Store.placeOfWord word m with
    | position n => simp [led, emptyFor] at target
    | key k =>
      rw [led] at target
      cases target
      exact mirrors_nil led
  · exact mirrors target

/-- What has been written along a path is what its segments lead a reader to, if the words among
them mean to the reader what they meant to the writer. -/
theorem segmentsBy_of_written {meaning : String → Resolved Value} {segments : List Segment}
    {path : List Place} {new v w : Value} (written : Written new path v w)
    (leads : segments.map (Segment.placeBy meaning) = path.map some)
    (mirrored : Mirrored meaning segments v)
    (means : ∀ word m, Plan.Looks word segments → meaning word = .ok m →
      answer word = .ok m) :
    Store.segmentsBy answer shown w segments = .ok new := by
  induction written generalizing segments with
  | here v =>
    obtain rfl : segments = [] := by simpa using leads
    rfl
  | @member v inner members place path target below ih =>
    cases segments with
    | nil => cases leads
    | cons segment rest =>
      simp only [List.map_cons, List.cons.injEq] at leads
      rw [segmentsBy_cons (segmentBy_of_inserted leads.1 ?_)]
      · exact ih leads.2 (mirrored.2 place leads.1) fun word m looks =>
          means word m (List.mem_cons_of_mem _ looks)
      · rintro word m rfl meant
        refine ⟨?_, means word m List.mem_cons_self meant⟩
        obtain rfl : place = Store.placeOfWord word m := by
          simpa [Segment.placeBy, meant] using leads.1.symm
        exact mirrors_of_opened target (mirrored.1 word m members rfl meant)
  | @element v inner items n path target low high below ih =>
    cases segments with
    | nil => cases leads
    | cons segment rest =>
      simp only [List.map_cons, List.cons.injEq] at leads
      have found : (items.take (n - 1) ++ inner :: items.drop n)[n - 1]? = some inner := by
        rw [getElem?_element low high, if_pos rfl]
      rw [segmentsBy_cons (segmentBy_of_element leads.1 low found ?_)]
      · exact ih leads.2 (mirrored.2 _ leads.1) fun word m looks =>
          means word m (List.mem_cons_of_mem _ looks)
      · rintro word m rfl meant
        exact means word m List.mem_cons_self meant

end

end Value

namespace Store

variable {expr : String} {plan : Plan} {x : Variable} {w : Value}

/-- An expression stands for what is reached from the variable it starts from, if that is set. -/
theorem get_eq {s : Store} (parsed : Plan.parse expr = .ok plan) (free : ¬ plan.IsReserved) :
    s.get expr = match (s.lookup? plan.key).filter Variable.isSet with
      | some x => s.navigateBy s.getValue plan x plan.segments
      | none => s.absentRootBy s.getValue plan := by
  have clock : (plan.key == "now" || plan.key == "nowutc") = false := by
    simp only [Bool.or_eq_false_iff, beq_eq_false_iff_ne]
    exact ⟨fun now => free (.inl now), fun utc => free (.inr (.inl utc))⟩
  have setting : (plan.key == "settings") = false :=
    beq_eq_false_iff_ne.mpr fun settings => free (.inr (.inr settings))
  rw [get_eq_by, parsed]
  change s.resolvePlanBy s.getValue plan = _
  unfold resolvePlanBy
  change (if (plan.key == "now" || plan.key == "nowutc") = true then _ else
    if (plan.key == "settings") = true then _ else match s.lookup? plan.key with
      | some v => _
      | none => _) = _
  cases found : s.lookup? plan.key with
  | none => simp [clock, setting]
  | some x => cases set : x.isSet <;> simp [clock, setting, set, Option.filter]

/-- An expression stands for what its segments lead to from the value of its variable. -/
theorem getValue_of_segmentsBy {s : Store} (parsed : Plan.parse expr = .ok plan)
    (plain : plan.arithmetic = none) (free : ¬ plan.IsReserved)
    (found : s.lookup? plan.key = some x) (set : x.isSet = true)
    (leads : segmentsBy s.getValue plan.expr x.value plan.segments = .ok w) :
    s.getValue expr = .ok w := by
  have resolved : s.get expr = s.navigateBy s.getValue plan x plan.segments := by
    rw [get_eq parsed free, found]
    simp [Option.filter, set]
  rw [getValue, resolved]
  unfold navigateBy
  cases direct : plan.segments.isEmpty with
  | true =>
    rw [List.isEmpty_iff.mp direct] at leads
    cases leads
    simp [plain, Except.map]
  | false =>
    simp [plain, leads, Except.map, bind, Except.bind, pure, Except.pure]

end Store

end GoalScript
