import GoalScript.Memory.Text
import GoalScript.Proofs.Naming

namespace GoalScript.Span

def BeginsName (s : List Char) : Prop :=
  ∃ c ∈ s.head?, Text.isAlphabetic c = true ∨ c ∈ ['_', '!']

/-- What can stand between the percent signs of a reference. -/
structure IsName (name : List Char) : Prop where
  begins : BeginsName name
  inline : '%' ∉ name ∧ '\n' ∉ name

def reference (name : List Char) : List Char := '%' :: (name ++ ['%'])

def Opens (text : List Char) : Prop := ∃ name after, text = reference name ++ after ∧ IsName name

/-- At the span, from a percent sign to the next one on the line, stands a reference. -/
def IsReference (text : List Char) (span : Span) : Prop :=
  ∃ before name after, text = before ++ (reference name ++ after) ∧ IsName name ∧
    span = ⟨before.length, before.length + (reference name).length⟩

/-- The spans are where the references of the text are: one behind the other, and wherever a percent
sign outside those before it is followed by the beginning of a name and by a percent sign on the
same line. -/
structure Finds (text : List Char) (found : List Span) : Prop where
  sound : ∀ span ∈ found, IsReference text span
  apart : found.Pairwise fun a b => a.stop ≤ b.start
  complete : ∀ before rest, text = before ++ '%' :: rest → BeginsName rest →
    '%' ∈ rest.takeWhile (· != '\n') →
    (∀ span ∈ found, span.start < before.length → span.stop ≤ before.length) →
    ∃ span ∈ found, span.start = before.length

def shift (k : Nat) (span : Span) : Span := ⟨span.start + k, span.stop + k⟩

structure Stretch where
  before : List Char
  name : List Char

namespace Stretch

def text (stretch : Stretch) : List Char := stretch.before ++ reference stretch.name

def spans (place : Nat) : List Stretch → List Span
  | [] => []
  | stretch :: rest =>
    ⟨place + stretch.before.length, place + stretch.text.length⟩ ::
      spans (place + stretch.text.length) rest

end Stretch

/-- The text is cut behind each of its references. -/
structure Cut (text : List Char) (stretches : List Stretch) (tail : List Char) : Prop where
  joined : text = stretches.flatMap Stretch.text ++ tail
  named : ∀ stretch ∈ stretches, IsName stretch.name
  places : references text = Stretch.spans 0 stretches

variable {c : Char} {name rest s t text : List Char} {place : Nat} {span : Span}

theorem length_reference (name : List Char) : (reference name).length = name.length + 2 := by
  simp [reference]

theorem startsName_iff : startsName s = true ↔ BeginsName s := by
  cases s <;> simp [startsName, BeginsName, or_assoc]

instance (s : List Char) : Decidable (BeginsName s) := decidable_of_iff _ startsName_iff

instance (name : List Char) : Decidable (IsName name) :=
  decidable_of_iff (BeginsName name ∧ '%' ∉ name ∧ '\n' ∉ name)
    ⟨fun h => ⟨h.1, h.2⟩, fun h => ⟨h.begins, h.inline⟩⟩

/-- A percent sign does not begin a name. -/
theorem BeginsName.of_append (begins : BeginsName (name ++ '%' :: rest)) : BeginsName name := by
  cases name with
  | nil =>
    obtain ⟨c, head, letter⟩ := begins
    cases head
    exact absurd letter (by decide)
  | cons c name => exact begins

theorem IsName.startsName (named : IsName name) (after : List Char) :
    startsName (name ++ after) = true :=
  startsName_iff.mpr (Text.head_append named.begins after)

/-- What can be passed over on the way to the next percent sign. -/
theorem forall_inline (inline : '%' ∉ name ∧ '\n' ∉ name) :
    ∀ c ∈ name, (c != '%' && c != '\n') = true := by
  intro c mem
  rw [Text.forall_bne inline.1 c mem, Text.forall_bne inline.2 c mem, Bool.and_self]

theorem closing?_eq_some_iff {n : Nat} : closing? s = some n ↔
    ∃ name after, s = name ++ '%' :: after ∧ ('%' ∉ name ∧ '\n' ∉ name) ∧ n = name.length := by
  constructor
  · intro closes
    unfold closing? at closes
    split at closes
    · rename_i after stopped
      cases closes
      refine ⟨s.takeWhile fun c => c != '%' && c != '\n', after, ?_, ?_, rfl⟩
      · rw [← stopped, List.takeWhile_append_dropWhile]
      · constructor
        · intro mem
          simpa using List.mem_takeWhile_imp mem
        · intro mem
          simpa using List.mem_takeWhile_imp mem
    · cases closes
  · rintro ⟨name, after, rfl, inline, rfl⟩
    have passed := forall_inline inline
    have closing : (name ++ '%' :: after).dropWhile (fun c => c != '%' && c != '\n') =
        '%' :: after := Text.dropWhile_append passed ⟨'%', rfl, rfl⟩
    unfold closing?
    rw [closing, List.takeWhile_append_of_pos passed]
    simp

/-- Where a reference begins it is passed over as a whole. -/
theorem referencesFrom_reference (named : IsName name) (after : List Char) (place : Nat) :
    referencesFrom place (reference name ++ after) =
      ⟨place, place + (reference name).length⟩ ::
        referencesFrom (place + (reference name).length) after := by
  have split : reference name ++ after = '%' :: (name ++ '%' :: after) := by simp [reference]
  have closes : closing? (name ++ '%' :: after) = some name.length :=
    closing?_eq_some_iff.mpr ⟨name, after, rfl, named.inline, rfl⟩
  rw [split, referencesFrom, named.startsName, closes, length_reference]
  simp [List.drop_append, Nat.add_assoc, List.drop_eq_nil_of_le]

/-- Everywhere else one character is passed over. -/
theorem referencesFrom_skip (shut : ¬ Opens (c :: rest)) (place : Nat) :
    referencesFrom place (c :: rest) = referencesFrom (place + 1) rest := by
  rw [referencesFrom]
  split
  · rename_i marked
    obtain ⟨sign, begins⟩ := Bool.and_eq_true_iff.mp marked
    obtain rfl := beq_iff_eq.mp sign
    split
    · rename_i n closes
      obtain ⟨name, after, rfl, inline, -⟩ := closing?_eq_some_iff.mp closes
      have named : IsName name := ⟨(startsName_iff.mp begins).of_append, inline⟩
      exact absurd ⟨name, after, by simp [reference], named⟩ shut
    · rfl
  · rfl

/-- A text is empty, or begins with a reference, or with a character that begins none. -/
@[elab_as_elim]
theorem scan {P : List Char → Prop} (nil : P [])
    (reference : ∀ name after, IsName name → P after → P (reference name ++ after))
    (skip : ∀ c rest, ¬ Opens (c :: rest) → P rest → P (c :: rest)) (text : List Char) :
    P text := by
  induction h : text.length using Nat.strongRecOn generalizing text with
  | _ n ih =>
    subst h
    by_cases opens : Opens text
    · obtain ⟨name, after, rfl, named⟩ := opens
      refine reference name after named (ih after.length ?_ after rfl)
      simp [length_reference]
    · cases text with
      | nil => exact nil
      | cons c rest => exact skip c rest opens (ih rest.length (by simp) rest rfl)

theorem opens_iff : Opens ('%' :: rest) ↔
    BeginsName rest ∧ '%' ∈ rest.takeWhile (· != '\n') := by
  constructor
  · rintro ⟨name, after, same, named⟩
    obtain rfl : rest = name ++ '%' :: after := by simpa [reference] using same
    refine ⟨Text.head_append named.begins _, ?_⟩
    rw [List.takeWhile_append_of_pos (Text.forall_bne named.inline.2)]
    simp
  · rintro ⟨begins, mem⟩
    obtain ⟨name, more, split, other⟩ := List.eq_append_cons_of_mem mem
    obtain ⟨after, same⟩ : ∃ after, rest = name ++ '%' :: after := by
      refine ⟨more ++ rest.dropWhile (· != '\n'), ?_⟩
      rw [← List.cons_append, ← List.append_assoc, ← split, List.takeWhile_append_dropWhile]
    have inline : '\n' ∉ name := by
      intro mem
      have passed : '\n' ∈ rest.takeWhile (· != '\n') := split ▸ List.mem_append_left _ mem
      simpa using List.mem_takeWhile_imp passed
    subst same
    exact ⟨name, after, by simp [reference], begins.of_append, other, inline⟩

/-- What is not part of a reference is not part of one when a further line follows. -/
theorem Opens.of_line (opens : Opens (s ++ '\n' :: t)) : Opens s := by
  obtain ⟨name, after, same, named⟩ := opens
  obtain ⟨more, front, back⟩ | ⟨more, front, -⟩ := List.append_eq_append_iff.mp same
  · cases more with
    | nil => exact ⟨name, [], by simpa using front.symm, named⟩
    | cons c more =>
      obtain ⟨rfl, -⟩ := List.cons.inj back
      have mem : '\n' ∈ reference name := by simp [front]
      simp [reference, named.inline.2] at mem
  · exact ⟨name, more, front, named⟩

theorem referencesFrom_lines (first second : List Char) (place : Nat) :
    referencesFrom place (first ++ '\n' :: second) =
      referencesFrom place first ++ referencesFrom (place + (first.length + 1)) second := by
  induction first using scan generalizing place with
  | nil =>
    have shut : ¬ Opens ('\n' :: second) := by
      rintro ⟨name, after, same, -⟩
      simp [reference] at same
    simp [referencesFrom_skip shut, referencesFrom]
  | reference name after named ih =>
    rw [List.append_assoc, referencesFrom_reference named, referencesFrom_reference named, ih]
    simp [Nat.add_assoc]
  | skip c rest shut ih =>
    have shut' : ¬ Opens (c :: (rest ++ '\n' :: second)) := fun opens => shut opens.of_line
    rw [List.cons_append, referencesFrom_skip shut', referencesFrom_skip shut, ih]
    simp [Nat.add_assoc, Nat.add_comm 1]

theorem referencesFrom_add (text : List Char) (place k : Nat) :
    referencesFrom (place + k) text = (referencesFrom place text).map (shift k) := by
  induction text using scan generalizing place with
  | nil => simp [referencesFrom]
  | reference name after named ih =>
    rw [referencesFrom_reference named, referencesFrom_reference named, List.map_cons, ← ih]
    simp [shift, Nat.add_right_comm]
  | skip c rest shut ih =>
    rw [referencesFrom_skip shut, referencesFrom_skip shut, ← ih, Nat.add_right_comm]

/-- References are found line by line. -/
theorem references_lines (first second : List Char) :
    references (first ++ '\n' :: second) =
      references first ++ (references second).map (shift (first.length + 1)) := by
  rw [references, referencesFrom_lines, referencesFrom_add]
  rfl

theorem isReference_of_mem (text before : List Char)
    (mem : span ∈ referencesFrom before.length text) : IsReference (before ++ text) span := by
  induction text using scan generalizing before with
  | nil => simp [referencesFrom] at mem
  | reference name after named ih =>
    rw [referencesFrom_reference named] at mem
    rcases List.mem_cons.mp mem with rfl | mem
    · exact ⟨before, name, after, rfl, named, rfl⟩
    · simpa using ih (before ++ reference name) (by simpa using mem)
  | skip c rest shut ih =>
    rw [referencesFrom_skip shut] at mem
    simpa using ih (before ++ [c]) (by simpa using mem)

theorem le_start_of_mem (mem : span ∈ referencesFrom place text) : place ≤ span.start := by
  induction text using scan generalizing place with
  | nil => simp [referencesFrom] at mem
  | reference name after named ih =>
    rw [referencesFrom_reference named] at mem
    rcases List.mem_cons.mp mem with rfl | mem
    · exact le_rfl
    · exact (Nat.le_add_right _ _).trans (ih mem)
  | skip c rest shut ih =>
    rw [referencesFrom_skip shut] at mem
    exact (Nat.le_succ _).trans (ih mem)

/-- References do not overlap. -/
theorem referencesFrom_apart (text : List Char) (place : Nat) :
    (referencesFrom place text).Pairwise fun a b => a.stop ≤ b.start := by
  induction text using scan generalizing place with
  | nil => simp [referencesFrom]
  | reference name after named ih =>
    rw [referencesFrom_reference named]
    exact List.pairwise_cons.mpr ⟨fun span mem => le_start_of_mem mem, ih _⟩
  | skip c rest shut ih =>
    rw [referencesFrom_skip shut]
    exact ih _

/-- Where a reference could begin one does, unless the place is inside of another. -/
theorem mem_of_opens (text before : List Char) (split : text = before ++ '%' :: rest)
    (opens : Opens ('%' :: rest))
    (outside : ∀ span ∈ referencesFrom place text,
      span.start < place + before.length → span.stop ≤ place + before.length) :
    ∃ span ∈ referencesFrom place text, span.start = place + before.length := by
  induction text using scan generalizing before place with
  | nil => simp at split
  | reference name after named ih =>
    rw [referencesFrom_reference named] at outside ⊢
    cases before with
    | nil => exact ⟨_, List.mem_cons_self, rfl⟩
    | cons c before =>
      obtain ⟨first, later⟩ := List.forall_mem_cons.mp outside
      have passed : (reference name).length ≤ (c :: before).length :=
        Nat.le_of_add_le_add_left (first (by simp))
      obtain ⟨more, front⟩ : reference name <+: c :: before :=
        List.prefix_of_prefix_length_le ⟨after, rfl⟩ ⟨_, split.symm⟩ passed
      have place_eq : place + (c :: before).length =
          place + (reference name).length + more.length := by
        rw [← front, List.length_append, Nat.add_assoc]
      rw [← front, List.append_assoc] at split
      rw [place_eq] at later ⊢
      obtain ⟨span, mem, starts⟩ := ih more (List.append_cancel_left split) later
      exact ⟨span, List.mem_cons_of_mem _ mem, starts⟩
  | skip c rest shut ih =>
    rw [referencesFrom_skip shut] at outside ⊢
    cases before with
    | nil =>
      obtain ⟨rfl, rfl⟩ := List.cons.inj split
      exact absurd opens shut
    | cons d before =>
      obtain ⟨rfl, rfl⟩ := List.cons.inj split
      have place_eq : place + (c :: before).length = place + 1 + before.length := by
        simp [Nat.add_assoc, Nat.add_comm 1]
      rw [place_eq] at outside ⊢
      exact ih before rfl outside

/-- The references that are found are those of the text. -/
theorem finds_references (text : List Char) : Finds text (references text) where
  sound span mem := isReference_of_mem text [] mem
  apart := referencesFrom_apart text 0
  complete before rest split begins closes outside := by
    have opens : Opens ('%' :: rest) := opens_iff.mpr ⟨begins, closes⟩
    have found := @mem_of_opens rest 0 text before split opens
    rw [Nat.zero_add] at found
    exact found outside

theorem spans_add (stretches : List Stretch) (place k : Nat) :
    Stretch.spans (place + k) stretches = (Stretch.spans place stretches).map (shift k) := by
  induction stretches generalizing place with
  | nil => rfl
  | cons stretch stretches ih =>
    rw [Stretch.spans, Stretch.spans, List.map_cons, ← ih]
    simp [shift, Nat.add_right_comm]

namespace Cut

variable {stretches : List Stretch} {tail : List Char}

theorem places_from (cut : Cut text stretches tail) (place : Nat) :
    referencesFrom place text = Stretch.spans place stretches := by
  have moved := referencesFrom_add text 0 place
  rw [← references, cut.places, ← spans_add, Nat.zero_add] at moved
  exact moved

theorem nil : Cut [] [] [] where
  joined := rfl
  named := List.forall_mem_nil _
  places := by simp [references, referencesFrom, Stretch.spans]

theorem reference (named : IsName name) (cut : Cut rest stretches tail) :
    Cut (reference name ++ rest) (⟨[], name⟩ :: stretches) tail where
  joined := by simp [cut.joined, Stretch.text]
  named := List.forall_mem_cons.mpr ⟨named, cut.named⟩
  places := by
    rw [references, referencesFrom_reference named, cut.places_from]
    simp [Stretch.spans, Stretch.text]

theorem skip (shut : ¬ Opens (c :: rest)) (cut : Cut rest stretches tail) :
    ∃ stretches tail, Cut (c :: rest) stretches tail := by
  have places := referencesFrom_skip shut 0
  rw [cut.places_from] at places
  cases stretches with
  | nil => exact ⟨[], c :: tail, by simp [cut.joined], List.forall_mem_nil _, places⟩
  | cons stretch stretches =>
    refine ⟨⟨c :: stretch.before, stretch.name⟩ :: stretches, tail, ?_, ?_, ?_⟩
    · simp [cut.joined, Stretch.text]
    · simpa using cut.named
    · rw [references, places]
      simp [Stretch.spans, Stretch.text, Nat.add_assoc, Nat.add_comm 1]

end Cut

/-- Every text can be cut behind its references. -/
theorem exists_cut (text : List Char) : ∃ stretches tail, Cut text stretches tail := by
  induction text using scan with
  | nil => exact ⟨[], [], .nil⟩
  | reference name after named ih =>
    obtain ⟨stretches, tail, cut⟩ := ih
    exact ⟨_, tail, cut.reference named⟩
  | skip c rest shut ih =>
    obtain ⟨stretches, tail, cut⟩ := ih
    exact cut.skip shut

end GoalScript.Span
