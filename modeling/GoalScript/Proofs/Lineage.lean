import GoalScript.Proofs.Trimmings

namespace GoalScript

namespace Plan

variable {plan : Plan} {s last : List Char} {segments : List Segment}

/-- The expression leads to where the plan takes its last step from. -/
def NamesParent (plan : Plan) (expr : String) : Prop :=
  ∃ parent, parse expr = .ok parent ∧ parent.root = plan.root ∧
    parent.segments = plan.segments.dropLast ∧ parent.arithmetic = none

structure IsBareRoot (s : List Char) : Prop where
  named : s ≠ []
  single : splitTop '.' s = [s]
  unbracketed : '[' ∉ s
  literal : translateEscapes s = s

/-- The last segment of the plan is all that is written behind what names its parent. -/
inductive LastAlone (plan : Plan) : Prop where
  | behindPoint {front : List (List Char)} {last : List Char} {segment : Segment}
    (split : splitTop '.' plan.expr.toList = front ++ [last]) (some : front ≠ [])
    (alone : token last last = .ok [segment])
  | behindRoot {first : List Char} (split : splitTop '.' plan.expr.toList = [first])
    (alone : plan.segments.length = 1) (bare : IsBareRoot plan.root.toList)

/-- What is stripped off the text is no part of its path. -/
def KeepsPath (text : List Char) : Prop := path text (strip text) = path text text

theorem keepsPath_of_stripped (stripped : strip s = s) : KeepsPath s := congrArg (path s) stripped

theorem expr_of_parse {text : String} (h : parse text = .ok plan) :
    plan.expr.toList = strip text.toList := by
  unfold parse parseChars at h
  dsimp only at h
  split at h
  · cases h
  · obtain ⟨found, -, rfl⟩ := Resolved.map_eq_ok.mp h
    exact String.toList_ofList

/-- An expression names the parent if its path is read as the root and all segments but the last. -/
theorem namesParent_iff_path (plan : Plan) (expr : String) :
    plan.NamesParent expr ↔ splitArithmetic (strip expr.toList) = none ∧
      path expr.toList (strip expr.toList) = .ok (plan.root, plan.segments.dropLast) := by
  constructor
  · rintro ⟨parent, read, root, segments, plain⟩
    obtain ⟨left, found, ⟨-, uncalculated, rfl⟩ | ⟨a, calculated, -⟩⟩ := parse_cases read
    · exact ⟨uncalculated, by rwa [root, segments] at found⟩
    · rw [plain] at calculated
      cases calculated
  · rintro ⟨uncalculated, found⟩
    have some : (strip expr.toList).isEmpty = false := by
      cases text : strip expr.toList with
      | nil =>
        rw [text] at found
        cases found
      | cons => rfl
    refine ⟨⟨String.ofList (strip expr.toList), plan.root, plan.segments.dropLast, none⟩, ?_, rfl,
      rfl, rfl⟩
    unfold parse parseChars
    simp only [uncalculated, some, Bool.false_eq_true, if_false, found]
    rfl

/-- Reading a name makes it shorter unless nothing divides it and nothing in it stands for another
character, so only such a name reads as itself. -/
theorem path_self_iff {root : String} (free : QueryFree segments) :
    path root.toList root.toList = .ok (root, segments) ↔
      segments = [] ∧ IsBareRoot root.toList := by
  constructor
  · intro found
    obtain ⟨first, rest, indexes, groups, laid, rfl⟩ := laid_of_path free found
    have whole : joinTop '.' (first :: rest) = root.toList := by
      rw [← laid.split, splitTop, joinTop_splitFrom]
    have decoded := laid.length_root_le_name
    have named : (splitName first).1.length ≤ first.length :=
      (List.takeWhile_prefix _).length_le
    cases rest with
    | cons next rest =>
      have longer : root.toList.length = _ :=
        (congrArg List.length whole).symm.trans
          (Text.length_intercalate_cons ['.'] first (List.cons_ne_nil next rest))
      simp only [List.length_singleton] at longer
      omega
    | nil =>
      have same : first = root.toList := by simpa [joinTop] using whole
      subst same
      have bare : (splitName root.toList).1 = root.toList :=
        (List.takeWhile_prefix _).eq_of_length (le_antisymm named decoded)
      have unbracketed : '[' ∉ root.toList := by
        intro bracketed
        have outside := List.mem_takeWhile_imp (bare.symm ▸ bracketed : '[' ∈ (splitName _).1)
        simp at outside
      have nothing := laid.indexed
      rw [splitName_of_not_mem unbracketed, brackets_nil] at nothing
      obtain rfl := List.forall₂_nil_left_iff.mp laid.grouped
      cases nothing
      have literal := congrArg String.toList laid.root_eq
      rw [bare, String.toList_ofList] at literal
      refine ⟨rfl, ?_, laid.split, unbracketed, literal.symm⟩
      have some := laid.named
      rw [bare] at some
      simpa using some
  · rintro ⟨rfl, bare⟩
    have plain := splitName_of_not_mem bare.unbracketed
    have laid : Laid root.toList root.toList [] root [] [] := {
      split := bare.single
      named := by simpa [plain] using bare.named
      unqueried := by simp [plain, isQueryToken_of_isChain .nil]
      root_eq := by rw [plain, bare.literal, String.ofList_toList]
      indexed := by rw [plain, brackets_nil]
      grouped := .nil }
    exact laid.path_eq

/-- Behind the last point is the last group of segments, which may be longer than one. What is left
when the text before it is stripped is not read as any of them. -/
theorem path_front_iff {first : List Char} {rest : List (List Char)} {indexes : List Segment}
    {groups : List (List Segment)} (free : QueryFree plan.segments)
    (laid : Laid plan.expr.toList first (rest ++ [last]) plan.root indexes groups)
    (segments_eq : plan.segments = indexes ++ groups.flatten)
    (text_eq : joinTop '.' (first :: rest) = s) :
    path s (strip s) = .ok (plan.root, plan.segments.dropLast) ↔
      KeepsPath s ∧ plan.LastAlone := by
  obtain ⟨before, group, rfl, grouped, step, read⟩ := laid.grouped.exists_concat
  have some : first :: rest ≠ [] := List.cons_ne_nil _ _
  have split : splitTop '.' plan.expr.toList = (first :: rest) ++ [last] := laid.split
  have parent : Laid s first rest plan.root indexes before :=
    { laid with
      split := text_eq ▸ splitTop_front split some
      indexed := brackets_of_ok laid.indexed
      grouped }
  have more : group ≠ [] := by
    rintro rfl
    exact absurd step.present (by simp [token_eq_nil read])
  have dropped : plan.segments.dropLast = indexes ++ before.flatten ++ group.dropLast := by
    rw [segments_eq, List.flatten_append, List.flatten_singleton, ← List.append_assoc,
      List.dropLast_append_of_ne_nil more]
  constructor
  · intro found
    obtain ⟨first', rest', indexes', groups', laid', same⟩ :=
      laid_of_path (fun path mem => free path (List.dropLast_subset _ mem)) found
    have fewer := laid'.length_le (Remains.strip s) parent
    have alone : group.dropLast = [] := by
      rw [← same, dropped, List.length_append] at fewer
      exact List.eq_nil_of_length_eq_zero (by omega)
    have single := List.dropLast_concat_getLast more
    rw [alone, List.append_nil] at dropped
    rw [alone, List.nil_append] at single
    refine ⟨?_, .behindPoint split some (single ▸ read)⟩
    rw [KeepsPath, found, parent.path_eq, dropped]
  · rintro ⟨keeps, ⟨split', -, alone⟩ | ⟨split', -, -⟩⟩
    · obtain ⟨-, same⟩ := List.append_inj' (split'.symm.trans split) rfl
      obtain rfl := List.singleton_inj.mp same
      cases read.symm.trans alone
      rw [keeps, parent.path_eq, dropped]
      simp
    · exact absurd (split'.symm.trans split) (by simp)

/-- Without a point the root stands for the parent, and names it if there is a single index. -/
theorem path_root_iff {first : List Char} (free : QueryFree plan.segments)
    (deep : plan.segments ≠ []) (single : splitTop '.' plan.expr.toList = [first]) :
    path plan.root.toList (strip plan.root.toList) = .ok (plan.root, plan.segments.dropLast) ↔
      KeepsPath plan.root.toList ∧ plan.LastAlone := by
  have unqueried : QueryFree plan.segments.dropLast :=
    fun path mem => free path (List.dropLast_subset _ mem)
  constructor
  · intro found
    obtain ⟨first, rest, indexes, groups, laid, -⟩ := laid_of_path unqueried found
    have stripped := (Remains.strip _).eq_of_length laid.length_root_le
    refine ⟨keepsPath_of_stripped stripped, ?_⟩
    rw [stripped] at found
    obtain ⟨whole, bare⟩ := (path_self_iff unqueried).mp found
    have alone := List.dropLast_concat_getLast deep
    rw [whole, List.nil_append] at alone
    exact .behindRoot single (by rw [← alone, List.length_singleton]) bare
  · rintro ⟨keeps, ⟨split, some, -⟩ | ⟨-, alone, bare⟩⟩
    · rename_i front last segment
      have short := congrArg List.length (single.symm.trans split)
      have present := List.length_pos_iff.mpr some
      simp only [List.length_append, List.length_singleton] at short
      omega
    · obtain ⟨segment, segments_eq⟩ := List.length_eq_one_iff.mp alone
      rw [keeps]
      exact (path_self_iff unqueried).mpr ⟨by rw [segments_eq]; rfl, bare⟩

/-- A plan with segments has an expression for its parent. It leads there exactly if it calculates
nothing, nothing of its path is stripped, and the last segment is written by itself. -/
theorem parents_are_named (raw : String) (plan : Plan) (read : parse raw = .ok plan)
    (deep : plan.segments ≠ []) (plain : plan.arithmetic = none) (free : QueryFree plan.segments) :
    ∃ expr, plan.parent? = some expr ∧
      (plan.NamesParent expr ↔
        splitArithmetic (strip expr.toList) = none ∧ KeepsPath expr.toList ∧ plan.LastAlone) := by
  have present : plan.segments.isEmpty = false := by simpa using deep
  obtain ⟨left, found, ⟨-, -, rfl⟩ | ⟨a, calculated, -⟩⟩ := parse_cases read
  · rw [← expr_of_parse read] at found
    obtain ⟨first, rest, indexes, groups, laid, segments_eq⟩ := laid_of_path free found
    unfold parent?
    rw [present, laid.split]
    rcases List.eq_nil_or_concat rest with rfl | ⟨front, last, rfl⟩
    · refine ⟨plan.root, rfl, ?_⟩
      rw [namesParent_iff_path, path_root_iff free deep laid.split]
    · rw [List.concat_eq_append] at laid ⊢
      refine ⟨String.ofList (joinTop '.' (first :: front)), ?_, ?_⟩
      · have dropped : ((first :: front) ++ [last]).dropLast = first :: front :=
          List.dropLast_concat
        rw [List.cons_append] at dropped
        simp [dropped]
      · rw [namesParent_iff_path, String.toList_ofList, path_front_iff free laid segments_eq rfl]
  · rw [plain] at calculated
    cases calculated

/-- A call behind an index, and a root whose placeholder is kept. -/
theorem parents_are_named_call :
    ∃ plan, parse "%file&dot;name.list[2].Trim('.')%" = .ok plan ∧
      plan.parent? = some "file&dot;name.list[2]" ∧ plan.NamesParent "file&dot;name.list[2]" := by
  let plan : Plan := {
    expr := "file&dot;name.list[2].Trim('.')", root := "file.name"
    segments := [.property "list", .index (.position 2), .method "Trim" [.literal (.text ".")]] }
  have read : parse "%file&dot;name.list[2].Trim('.')%" = .ok plan := by with_unfolding_all rfl
  have free : QueryFree plan.segments := by
    intro path mem
    simp [plan] at mem
  obtain ⟨expr, parent, named⟩ :=
    parents_are_named _ plan read (List.cons_ne_nil _ _) rfl free
  have known : plan.parent? = some "file&dot;name.list[2]" := by decide +kernel
  obtain rfl := Option.some.inj (parent.symm.trans known)
  have alone : plan.LastAlone :=
    .behindPoint (show _ = ["file&dot;name".toList, "list[2]".toList] ++ ["Trim('.')".toList] by
      decide +kernel) (List.cons_ne_nil _ _) (by with_unfolding_all rfl)
  have stripped : strip "file&dot;name.list[2]".toList = "file&dot;name.list[2]".toList := by
    decide +kernel
  have uncalculated : splitArithmetic (strip "file&dot;name.list[2]".toList) = none := by
    rw [stripped]
    with_unfolding_all rfl
  have keeps : KeepsPath "file&dot;name.list[2]".toList := keepsPath_of_stripped stripped
  exact ⟨plan, read, known, named.mpr ⟨uncalculated, keeps, alone⟩⟩

/-- With an index behind a member, the member is lost as well. -/
theorem parents_lose_members :
    ∃ plan expr, parse "user.items[2]" = .ok plan ∧ plan.segments ≠ [] ∧ plan.arithmetic = none ∧
      QueryFree plan.segments ∧ plan.parent? = some expr ∧ ¬ plan.NamesParent expr := by
  let plan : Plan := {
    expr := "user.items[2]", root := "user"
    segments := [.property "items", .index (.position 2)] }
  refine ⟨plan, "user", by with_unfolding_all rfl, List.cons_ne_nil _ _, rfl, ?_,
    by decide +kernel, ?_⟩
  · intro path mem
    simp [plan] at mem
  · rintro ⟨parent, read, -, segments, -⟩
    have known : parse "user" = .ok { expr := "user", root := "user" } := by
      with_unfolding_all rfl
    cases read.symm.trans known
    cases segments

end Plan

end GoalScript
