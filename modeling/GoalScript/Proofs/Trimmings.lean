import GoalScript.Proofs.Layout

namespace GoalScript

namespace Text

variable {α : Type} {p : α → Bool} {s : List α}

theorem takeWhile_append_of_dropWhile (stops : s.dropWhile p ≠ []) (t : List α) :
    (s ++ t).takeWhile p = s.takeWhile p := by
  have whole := congrArg List.length (List.takeWhile_append_dropWhile (p := p) (l := s))
  rw [List.length_append] at whole
  have some := List.length_pos_iff.mpr stops
  rw [List.takeWhile_append, if_neg (by omega)]

theorem dropWhile_append_of_dropWhile (stops : s.dropWhile p ≠ []) (t : List α) :
    (s ++ t).dropWhile p = s.dropWhile p ++ t := by
  rw [List.dropWhile_append, if_neg (by simpa using stops)]

end Text

namespace Plan

/-- Characters that can be stripped. They open nothing, close nothing and divide nothing. -/
def IsLoose (c : Char) : Prop := Text.isBlank c = true ∨ c ∈ ['%', '+', '-', '*', '/']

instance : DecidablePred IsLoose := fun _ => inferInstanceAs (Decidable (_ ∨ _))

def marks : List Char := ['"', '\'', '[', ']', '(', ')', '.']

theorem not_isLoose : ∀ c ∈ marks, ¬ IsLoose c := List.all_iff_forall_prop.mp (by decide)

theorem not_mem_of_loose {s : List Char} {c : Char} (loose : ∀ c ∈ s, IsLoose c)
    (mark : c ∈ marks) : c ∉ s := fun mem => not_isLoose c mark (loose c mem)

theorem isQuiet_of_loose {s : List Char} (loose : ∀ c ∈ s, IsLoose c) : IsQuiet s := by
  have sub : ['"', '\'', '[', ']', '(', ')'] ⊆ marks := by decide
  exact fun c mem nests => not_mem_of_loose loose (sub nests) mem

theorem isLoose_of_isDangling {c : Char} {rest : List Char}
    (h : isDangling (c :: rest) = true) : IsLoose c := by
  by_cases sign : c ∈ ['%', '+', '-', '*', '/']
  · exact .inr sign
  · simp only [List.mem_cons, List.not_mem_nil, or_false, not_or] at sign
    simp [isDangling, sign] at h

/-- The text is what the other has between loose characters. -/
def Remains (s t : List Char) : Prop :=
  ∃ before after, t = before ++ s ++ after ∧ (∀ c ∈ before, IsLoose c) ∧ ∀ c ∈ after, IsLoose c

namespace Remains

variable {s t u : List Char}

theorem behind {before : List Char} (loose : ∀ c ∈ before, IsLoose c) (s : List Char) :
    Remains s (before ++ s) :=
  ⟨before, [], (List.append_nil _).symm, loose, List.forall_mem_nil _⟩

theorem refl (s : List Char) : Remains s s := behind (List.forall_mem_nil _) s

theorem trans (h : Remains s t) (h' : Remains t u) : Remains s u := by
  obtain ⟨before, after, rfl, loose, loose'⟩ := h
  obtain ⟨before', after', rfl, outer, outer'⟩ := h'
  refine ⟨before' ++ before, after ++ after', by simp, fun c mem => ?_, fun c mem => ?_⟩
  · exact (List.mem_append.mp mem).elim (outer c) (loose c)
  · exact (List.mem_append.mp mem).elim (loose' c) (outer' c)

theorem reverse (h : Remains s t) : Remains s.reverse t.reverse := by
  obtain ⟨before, after, rfl, loose, loose'⟩ := h
  exact ⟨after.reverse, before.reverse, by simp, by simpa using loose', by simpa using loose⟩

theorem eq_of_length (h : Remains s t) (long : t.length ≤ s.length) : s = t := by
  obtain ⟨before, after, rfl, -, -⟩ := h
  simp only [List.length_append] at long
  obtain rfl : before = [] := List.eq_nil_of_length_eq_zero (by omega)
  obtain rfl : after = [] := List.eq_nil_of_length_eq_zero (by omega)
  simp

theorem dropWhile {p : Char → Bool} (loose : ∀ c, p c = true → IsLoose c) (s : List Char) :
    Remains (s.dropWhile p) s := by
  have taken : ∀ c ∈ s.takeWhile p, IsLoose c :=
    fun c mem => loose c (List.mem_takeWhile_imp mem)
  have parted := behind taken (s.dropWhile p)
  rwa [List.takeWhile_append_dropWhile] at parted

theorem trim (s : List Char) : Remains (Text.trim s) s := by
  have left := dropWhile (fun _ => .inl) s (p := Text.isBlank)
  have right := (dropWhile (fun _ => .inl) (s.dropWhile Text.isBlank).reverse
    (p := Text.isBlank)).reverse
  rw [List.reverse_reverse] at right
  exact right.trans left

theorem dropLeading (s : List Char) : Remains (dropLeading '%' s) s := by
  unfold Plan.dropLeading
  split
  · split
    · rename_i c rest sign
      obtain rfl := beq_iff_eq.mp sign
      exact behind (List.forall_mem_singleton.mpr (by decide)) rest
    · exact refl _
  · exact refl _

theorem dropTrailing (s : List Char) : Remains (dropTrailing '%' s) s := by
  have mirrored := (dropLeading s.reverse).reverse
  rwa [List.reverse_reverse, ← dropTrailing_eq] at mirrored

theorem dropDangling (s : List Char) : Remains (dropDangling s) s := by
  fun_induction Plan.dropDangling s with
  | case1 => exact refl _
  | case2 c rest dangling ih =>
    have first : Remains rest (c :: rest) :=
      behind (List.forall_mem_singleton.mpr (isLoose_of_isDangling dangling)) rest
    exact (ih.trans (dropWhile (fun _ => .inl) rest)).trans first
  | case3 => exact refl _

/-- What is stripped off is loose. -/
theorem strip (s : List Char) : Remains (strip s) s := by
  have inner := (dropTrailing _).trans ((dropLeading _).trans (trim s))
  have ended := (dropDangling (Text.trim (Plan.dropTrailing '%' (Plan.dropLeading '%'
    (Text.trim s)))).reverse).reverse
  rw [List.reverse_reverse] at ended
  exact ended.trans ((trim _).trans inner)

end Remains

variable {s rest after raw other : List Char} {segments more : List Segment}

/-- Something loose behind indexes adds no segment. -/
theorem brackets_concat (loose : ∀ c ∈ after, IsLoose c) (h : brackets raw rest = .ok segments)
    (h' : brackets other (rest ++ after) = .ok more) : more = segments := by
  fun_induction brackets raw rest generalizing segments more with
  | case1 rest blank =>
    cases h
    have behind : Text.trimLeft (rest ++ after) = Text.trimLeft after := by
      rw [Text.trimLeft, List.dropWhile_append, ← Text.trimLeft, blank]
      rfl
    rw [brackets] at h'
    split at h'
    · exact (Except.ok.inj h').symm
    · rename_i inside opened
      rw [behind] at opened
      have mem := (List.dropWhile_suffix _).subset (opened ▸ List.mem_cons_self)
      exact absurd (loose _ mem) (not_isLoose _ (by decide))
    · cases h'
  | case2 => cases h
  | case3 rest inside opened c aft closed ih =>
    obtain ⟨i, first, h⟩ := Resolved.bind_eq_ok.mp h
    obtain ⟨others, later, h⟩ := Resolved.bind_eq_ok.mp h
    cases h
    have opened' : Text.trimLeft (rest ++ after) = '[' :: (inside ++ after) := by
      rw [Text.trimLeft] at opened ⊢
      rw [Text.dropWhile_append_of_dropWhile (by simp [opened]), opened]
      rfl
    have stops : inside.dropWhile (· != ']') ≠ [] := by simp [closed]
    have closed' : (inside ++ after).dropWhile (· != ']') = c :: (aft ++ after) := by
      rw [Text.dropWhile_append_of_dropWhile stops, closed]
      rfl
    have taken := Text.takeWhile_append_of_dropWhile stops after
    rw [brackets] at h'
    split at h'
    · simp_all
    · rename_i found
      obtain ⟨-, rfl⟩ := List.cons.inj (opened'.symm.trans found)
      split at h'
      · simp_all
      · rename_i found'
        obtain ⟨-, rfl⟩ := List.cons.inj (closed'.symm.trans found')
        rw [taken, index_of_ok first] at h'
        obtain ⟨j, same, h'⟩ := Resolved.bind_eq_ok.mp h'
        obtain ⟨others', later', h'⟩ := Resolved.bind_eq_ok.mp h'
        cases same
        cases h'
        rw [ih later later']
    · simp_all
  | case4 => cases h

theorem closeFrom_append {depth : Nat} {quote : Option Char} {inner behind : List Char}
    (h : closeFrom depth quote s = some (inner, behind)) (t : List Char) :
    closeFrom depth quote (s ++ t) = some (inner, behind ++ t) := by
  induction s generalizing depth quote inner with
  | nil => cases h
  | cons c rest ih =>
    have deeper {depth : Nat} {quote : Option Char}
        (h : (closeFrom depth quote rest).map (fun found => (c :: found.1, found.2)) =
          some (inner, behind)) :
        (closeFrom depth quote (rest ++ t)).map (fun found => (c :: found.1, found.2)) =
          some (inner, behind ++ t) := by
      obtain ⟨⟨inner', behind'⟩, found, same⟩ := Option.map_eq_some_iff.mp h
      cases same
      rw [ih found]
      rfl
    rw [List.cons_append]
    unfold closeFrom at h ⊢
    dsimp only at h ⊢
    split at h
    · exact deeper h
    · split at h
      · rename_i marked
        rw [if_pos marked]
        exact deeper h
      · rename_i plain
        rw [if_neg plain]
        split at h
        · rename_i opens
          rw [if_pos opens]
          exact deeper h
        · rename_i shut
          rw [if_neg shut]
          split at h
          · rename_i closes
            rw [if_pos closes]
            split at h
            · cases h
              rfl
            · exact deeper h
          · rename_i inside
            rw [if_neg inside]
            exact deeper h

theorem length_token_le {text : List Char} (some : text ≠ [])
    (loose : ∀ c ∈ after, IsLoose c) (h : token raw text = .ok segments)
    (h' : token other (text ++ after) = .ok more) : segments.length ≤ more.length := by
  have present : 1 ≤ more.length := by
    refine List.length_pos_iff.mpr fun none => ?_
    rw [none] at h'
    exact some (List.append_eq_nil_iff.mp (token_eq_nil h')).1
  unfold token at h
  split at h
  · rename_i c inside opened
    split at h
    · cases h
    · rename_i inner behind closed
      obtain ⟨indexes, later, h⟩ := Resolved.bind_eq_ok.mp h
      cases h
      unfold token at h'
      rw [Text.dropWhile_append_of_dropWhile (by simp [opened]), opened] at h'
      dsimp only [List.cons_append] at h'
      rw [closeFrom_append closed] at h'
      obtain ⟨indexes', later', h'⟩ := Resolved.bind_eq_ok.mp h'
      cases h'
      rw [brackets_concat loose later later']
      exact Nat.le_refl _
  · rename_i uncalled
    split at h
    · obtain ⟨i, -, rfl⟩ := Resolved.map_eq_ok.mp h
      exact present
    · rename_i named
      obtain ⟨indexes, later, rfl⟩ := Resolved.map_eq_ok.mp h
      by_cases bare : text.dropWhile (· != '[') = []
      · rw [bare, brackets_nil] at later
        cases later
        refine Nat.le_trans ?_ present
        split <;> simp
      · unfold token at h'
        have uncalled' : (text ++ after).dropWhile (· != '(') = [] := by
          rw [List.dropWhile_append, uncalled, List.isEmpty_nil, if_pos rfl,
            List.dropWhile_eq_nil_iff]
          exact Text.forall_bne (not_mem_of_loose loose (by decide))
        have named' : ¬ (text ++ after).all Char.isDigit = true := by
          rw [List.all_append, Bool.and_eq_true]
          exact fun digits => named digits.1
        rw [uncalled'] at h'
        dsimp only [splitName] at h'
        rw [if_neg named', Text.takeWhile_append_of_dropWhile bare,
          Text.dropWhile_append_of_dropWhile bare] at h'
        obtain ⟨indexes', later', rfl⟩ := Resolved.map_eq_ok.mp h'
        rw [brackets_concat loose later later']

/-- The root of what is left has no more indexes than it had. -/
theorem length_indexes_le {before text : List Char} {indexes indexes' : List Segment}
    (outer : ∀ c ∈ before, IsLoose c) (loose : ∀ c ∈ after, IsLoose c)
    (h : brackets raw (splitName text).2 = .ok indexes)
    (h' : brackets other (splitName (before ++ (text ++ after))).2 = .ok indexes') :
    indexes.length ≤ indexes'.length := by
  have unopened : ∀ c ∈ before, (c != '[') = true :=
    Text.forall_bne (not_mem_of_loose outer (by decide))
  dsimp only [splitName] at h h'
  rw [List.dropWhile_append_of_pos unopened] at h'
  by_cases bare : text.dropWhile (· != '[') = []
  · rw [bare, brackets_nil] at h
    cases h
    exact Nat.zero_le _
  · rw [Text.dropWhile_append_of_dropWhile bare] at h'
    rw [brackets_concat loose h h']

/-- Tokens stand for their groups in one way. -/
theorem Grouped.unique {texts : List (List Char)} {groups groups' : List (List Segment)}
    (grouped : Grouped texts groups) (grouped' : Grouped texts groups') : groups = groups' := by
  refine List.right_unique_forall₂' (fun text group group' one one' => ?_) grouped grouped'
  exact Except.ok.inj (one.2.symm.trans one'.2)

/-- What is left of a path has no more segments than there were. -/
theorem Laid.length_le {text text' first first' : List Char} {rest rest' : List (List Char)}
    {root root' : String} {indexes indexes' : List Segment} {groups groups' : List (List Segment)}
    (remains : Remains text text') (laid : Laid text first rest root indexes groups)
    (laid' : Laid text' first' rest' root' indexes' groups') :
    (indexes ++ groups.flatten).length ≤ (indexes' ++ groups'.flatten).length := by
  obtain ⟨before, after, rfl, outer, loose⟩ := remains
  have closed : Closed (· = '.') {} before :=
    closed_of_isQuiet (isQuiet_of_loose outer) fun c mem same =>
      not_mem_of_loose outer (by decide) (same ▸ mem)
  have undotted : '.' ∉ after := not_mem_of_loose loose (by decide)
  have split := laid'.split
  rw [List.append_assoc, splitTop, splitFrom_append closed.hides, closed.after, ← splitTop] at split
  rcases List.eq_nil_or_concat rest with rfl | ⟨front, last, rfl⟩
  · have inner : splitTop '.' (text ++ after) = [] ++ [first ++ after] :=
      splitTop_concat undotted laid.split
    rw [inner, List.nil_append, List.modifyHead_cons] at split
    obtain ⟨rfl, rfl⟩ := List.cons.inj split
    obtain rfl := List.forall₂_nil_left_iff.mp laid.grouped
    obtain rfl := List.forall₂_nil_left_iff.mp laid'.grouped
    have fewer := length_indexes_le outer loose laid.indexed laid'.indexed
    simpa using fewer
  · rw [List.concat_eq_append] at laid
    have inner : splitTop '.' (text ++ after) = (first :: front) ++ [last ++ after] :=
      splitTop_concat undotted laid.split
    rw [inner, List.cons_append, List.modifyHead_cons] at split
    obtain ⟨rfl, rfl⟩ := List.cons.inj split
    obtain ⟨groups, group, rfl, grouped, step, read⟩ := laid.grouped.exists_concat
    obtain ⟨groups', group', rfl, grouped', -, read'⟩ := laid'.grouped.exists_concat
    obtain rfl := grouped.unique grouped'
    have some : last ≠ [] := by simpa using step.present
    have shorter := length_token_le some loose read read'
    have indexed' := laid'.indexed
    rw [← List.append_nil first] at indexed'
    have fewer := length_indexes_le outer (List.forall_mem_nil _) laid.indexed indexed'
    simp only [List.flatten_append, List.flatten_singleton, List.length_append]
    omega

end Plan

end GoalScript
