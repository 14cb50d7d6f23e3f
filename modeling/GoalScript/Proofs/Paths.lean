import Mathlib.Data.List.Chain
import Mathlib.Data.List.TakeWhile
import GoalScript.Proofs.Printing

namespace GoalScript

namespace Plan

variable {c : Char} {s : List Char}

section Brackets

variable {raw : List Char} {places : List Place}

theorem brackets_cons {inner : List Char} (rest : List Char) (h : ']' ∉ inner) :
    brackets raw ('[' :: (inner ++ ']' :: rest)) = (do
      let i ← Plan.index raw (Text.trim inner)
      let more ← brackets raw rest
      return .index i :: more) := by
  have before : ∀ c ∈ inner, (c != ']') = true := Text.forall_bne h
  have opened : Text.trimLeft ('[' :: (inner ++ ']' :: rest)) = '[' :: (inner ++ ']' :: rest) :=
    List.dropWhile_cons_of_neg (by decide)
  have inside : (inner ++ ']' :: rest).takeWhile (· != ']') = inner := by
    simp [List.takeWhile_append_of_pos before]
  have closing : (inner ++ ']' :: rest).dropWhile (· != ']') = ']' :: rest := by
    simp [List.dropWhile_append_of_pos before]
  rw [brackets]
  split
  · rename_i none
    rw [opened] at none
    cases none
  · rename_i text some
    rw [opened] at some
    obtain ⟨-, rfl⟩ := List.cons.inj some
    split
    · rename_i none
      rw [closing] at none
      cases none
    · rename_i some
      rw [closing] at some
      obtain ⟨-, rfl⟩ := List.cons.inj some
      rw [inside]
  · rename_i other
    exact absurd opened (other _)

theorem brackets_nil (raw : List Char) : brackets raw [] = .ok [] := by
  rw [brackets]
  rfl

/-- Indexes are read back one by one. -/
theorem brackets_print (writable : ∀ place ∈ places, place.IsWritable) :
    brackets raw (places.flatMap Place.print) =
      .ok (places.map fun place => .index place.index) := by
  induction places with
  | nil => exact brackets_nil raw
  | cons place places ih =>
    obtain ⟨first, rest⟩ := List.forall_mem_cons.mp writable
    have text : (place :: places).flatMap Place.print =
        '[' :: (place.inner ++ ']' :: places.flatMap Place.print) := by
      simp [Place.print]
    rw [text, brackets_cons _ (first.not_mem (by decide)),
      Text.trim_of_solid first.solid, first.index, ih rest]
    rfl

def NoQuery (c d : Char) : Prop := c = '[' → d ≠ '*' ∧ d ≠ '?'

/-- Where no bracket is followed by the mark of a query there is none. -/
theorem isQueryToken_of_isChain (h : List.IsChain NoQuery s) : isQueryToken s = false := by
  have absent {part : List Char} (query : ¬ List.IsChain NoQuery part) :
      Text.contains s part = false :=
    Bool.eq_false_iff.mpr fun found =>
      query <| List.IsChain.infix h ((Text.contains_iff _ _).mp found)
  rw [isQueryToken, absent, absent, Bool.or_false]
  · simp [NoQuery]
  · simp [NoQuery]

theorem isChain_of_not_mem (h : '[' ∉ s) : List.IsChain NoQuery s := by
  refine List.Pairwise.isChain (List.pairwise_of_forall_mem_list ?_)
  rintro c mem d - rfl
  exact absurd mem h

theorem isChain_place {place : Place} (writable : place.IsWritable) :
    List.IsChain NoQuery place.print := by
  refine List.isChain_cons.mpr ⟨fun c head _ => ?_, isChain_of_not_mem ?_⟩
  · cases place with
    | position n =>
      have mem := List.mem_of_mem_head? head
      simp only [Place.inner, List.mem_append, List.mem_singleton] at mem
      obtain digit | rfl := mem
      · have word := (isWordChar_of_mem_toString digit).not_sign
        simp only [signs, List.mem_cons, not_or] at word
        simp [word]
      · decide
    | key text =>
      obtain rfl : '\'' = c := Option.some.inj head
      decide
  · simp [writable.not_mem]

theorem isChain_append_places (h : List.IsChain NoQuery s)
    (writable : ∀ place ∈ places, place.IsWritable) :
    List.IsChain NoQuery (s ++ places.flatMap Place.print) := by
  induction places generalizing s with
  | nil => simpa using h
  | cons place places ih =>
    obtain ⟨first, rest⟩ := List.forall_mem_cons.mp writable
    rw [List.flatMap_cons, ← List.append_assoc]
    refine ih (List.isChain_append.mpr ⟨h, isChain_place first, ?_⟩) rest
    rintro c - d head -
    obtain rfl : '[' = d := Option.some.inj head
    exact ⟨by decide, by decide⟩

end Brackets

theorem splitName_places (h : '[' ∉ s) (places : List Place) :
    splitName (s ++ places.flatMap Place.print) = (s, places.flatMap Place.print) := by
  have before : ∀ c ∈ s, (c != '[') = true := Text.forall_bne h
  rw [splitName, List.takeWhile_append_of_pos before, List.dropWhile_append_of_pos before]
  cases places <;> simp [Place.print]

theorem splitName_of_not_mem (h : '[' ∉ s) : splitName s = (s, []) := by
  simpa using splitName_places h []

/-- A name and what stands in brackets behind it. -/
structure Token where
  name : String
  places : List Place

namespace Token

def text (t : Token) : List Char := escape separators t.name.toList ++ t.places.flatMap Place.print

def segments (t : Token) : List Segment :=
  .property t.name :: t.places.map fun place => .index place.index

structure IsWritable (t : Token) : Prop where
  name : IsName t.name.toList
  places : ∀ place ∈ t.places, place.IsWritable

end Token

namespace Token.IsWritable

variable {t : Token} (writable : t.IsWritable)
include writable

theorem closed {p : Char → Prop} (hp : ∀ c, p c → c ∈ dividers) : Closed p {} t.text :=
  (writable.name.closed hp).append
    (.flatMap fun place mem => (writable.places place mem).closed hp)

theorem begins : ∃ c ∈ t.text.head?, Text.isAlphabetic c = true ∨ c = '_' :=
  Text.head_append writable.name.escape_begins _

theorem splitName :
    Plan.splitName t.text = (escape separators t.name.toList, t.places.flatMap Place.print) :=
  splitName_places (writable.name.not_mem (by decide)) t.places

theorem uncalled : '(' ∉ t.text := by
  intro mem
  obtain name | bracketed := List.mem_append.mp mem
  · exact writable.name.not_mem (by decide) name
  · obtain ⟨place, mem, call⟩ := List.mem_flatMap.mp bracketed
    have outside : '(' ∉ place.inner := (writable.places place mem).not_mem (by decide)
    simp [Place.print, outside] at call

theorem isQueryToken : Plan.isQueryToken t.text = false := by
  have name : '[' ∉ escape separators t.name.toList := writable.name.not_mem (by decide)
  exact isQueryToken_of_isChain (isChain_append_places (isChain_of_not_mem name) writable.places)

theorem token (raw : List Char) : Plan.token raw t.text = .ok t.segments := by
  have uncalled : t.text.dropWhile (· != '(') = [] :=
    List.dropWhile_eq_nil_iff.mpr (Text.forall_bne writable.uncalled)
  have named : t.text.all Char.isDigit = false := by
    obtain ⟨c, head, begins⟩ := writable.begins
    have undigit : c.isDigit = false := by
      obtain letter | rfl := begins
      · exact Text.isDigit_of_isAlphabetic letter
      · decide
    exact List.all_eq_false.mpr ⟨c, List.mem_of_mem_head? head, by simp [undigit]⟩
  have some : (escape separators t.name.toList).isEmpty = false := by
    simpa using writable.name.escape_ne_nil
  have solid : Text.Solid (escape separators t.name.toList) :=
    Text.solid_of_visible writable.name.escape_ne_nil
      fun c mem => (writable.name.isWordChar mem).not_blank
  simp [Plan.token, uncalled, named, writable.splitName, some, Text.trim_of_solid solid,
    writable.name.translateEscapes, brackets_print writable.places, segments, Except.map]

end Token.IsWritable

namespace Step

def leading : List Step → List Place
  | .index place :: more => place :: leading more
  | _ => []

def tokens : List Step → List Token
  | [] => []
  | .property name :: more => ⟨name, leading more⟩ :: tokens more
  | .index _ :: more => tokens more

variable {steps : List Step}

theorem flatMap_print (steps : List Step) : steps.flatMap Step.print =
    (leading steps).flatMap Place.print ++ ((tokens steps).map Token.text).flatMap ('.' :: ·) := by
  induction steps with
  | nil => rfl
  | cons step steps ih =>
    cases step with
    | property name => simp [leading, tokens, Step.print, Token.text, ih]
    | index place => simp [leading, tokens, Step.print, ih]

theorem map_segment (steps : List Step) : steps.map segment =
    ((leading steps).map fun place => .index place.index) ++
      (tokens steps).flatMap Token.segments := by
  induction steps with
  | nil => rfl
  | cons step steps ih =>
    cases step with
    | property name => simp [leading, tokens, segment, Token.segments, ih]
    | index place => simp [leading, tokens, segment, ih]

theorem writable_leading (writable : ∀ step ∈ steps, step.IsWritable) :
    ∀ place ∈ leading steps, place.IsWritable := by
  induction steps with
  | nil => simp [leading]
  | cons step steps ih =>
    obtain ⟨first, rest⟩ := List.forall_mem_cons.mp writable
    cases step with
    | property name => simp [leading]
    | index place => exact List.forall_mem_cons.mpr ⟨first, ih rest⟩

theorem writable_tokens (writable : ∀ step ∈ steps, step.IsWritable) :
    ∀ t ∈ tokens steps, t.IsWritable := by
  induction steps with
  | nil => simp [tokens]
  | cons step steps ih =>
    obtain ⟨first, rest⟩ := List.forall_mem_cons.mp writable
    cases step with
    | property name =>
      exact List.forall_mem_cons.mpr ⟨⟨first, writable_leading rest⟩, ih rest⟩
    | index place => exact ih rest

theorem ends_print {step : Step} (writable : step.IsWritable) :
    ∃ c ∈ step.print.getLast?, IsWordChar c ∨ c = ']' := by
  cases step with
  | property name =>
    obtain ⟨c, last, word⟩ := IsName.escape_ends writable
    exact Text.last_append ['.'] ⟨c, last, .inl word⟩
  | index place => exact Text.last_append ('[' :: place.inner) ⟨']', rfl, .inr rfl⟩

theorem ends_flatMap (ends : ∃ c ∈ s.getLast?, IsWordChar c ∨ c = ']')
    (writable : ∀ step ∈ steps, step.IsWritable) :
    ∃ c ∈ (s ++ steps.flatMap Step.print).getLast?, IsWordChar c ∨ c = ']' := by
  induction steps generalizing s with
  | nil => simpa using ends
  | cons step steps ih =>
    obtain ⟨first, rest⟩ := List.forall_mem_cons.mp writable
    rw [List.flatMap_cons, ← List.append_assoc]
    exact ih (Text.last_append s (ends_print first)) rest

end Step

/-- Tokens are read back one by one. -/
theorem tokens_text (raw : List Char) {ts : List Token} (writable : ∀ t ∈ ts, t.IsWritable) :
    Plan.tokens raw (ts.map Token.text) = .ok (ts.flatMap Token.segments) := by
  induction ts with
  | nil => rfl
  | cons t ts ih =>
    obtain ⟨first, rest⟩ := List.forall_mem_cons.mp writable
    obtain ⟨c, head, begins⟩ := first.begins
    have some : t.text.isEmpty = false := by
      simpa using Text.ne_nil_of_head first.begins
    have unrooted : (t.text.head? == Option.some '$') = false := by
      have other : c ≠ '$' := by
        rintro rfl
        exact absurd begins (by decide)
      simpa [Option.mem_def.mp head] using other
    rw [List.map_cons, Plan.tokens]
    simp only [some, unrooted, first.isQueryToken, Bool.false_eq_true, if_false, first.token raw,
      ih rest]
    rfl

/-- What stands between margins is the path before an operation, and the operation if there is
one. -/
theorem parse_of_framed {found : Option (List Char × Arithmetic)} (framed : Framed s)
    (split : splitArithmetic s = found) (left right : Margin) :
    let raw := left.text ++ s ++ right.text.reverse
    parse (String.ofList raw) =
      (path raw ((found.map Prod.fst).getD s)).map fun (root, segments) =>
        { expr := String.ofList s, root, segments, arithmetic := found.map Prod.snd } := by
  have some : s.isEmpty = false := by simpa using Text.ne_nil_of_head framed.begins
  intro raw
  rw [parse, String.toList_ofList, parseChars]
  simp only [raw, framed.strip_margins, some, Bool.false_eq_true, if_false, split]
  cases found <;> rfl

theorem parse_of_bare {found : Option (List Char × Arithmetic)} (framed : Framed s)
    (split : splitArithmetic s = found) :
    parse (String.ofList s) =
      (path s ((found.map Prod.fst).getD s)).map fun (root, segments) =>
        { expr := String.ofList s, root, segments, arithmetic := found.map Prod.snd } := by
  let margin : Margin := ⟨[], none, List.forall_mem_nil _, List.forall_mem_nil _⟩
  have bare : margin.text ++ s ++ margin.text.reverse = s := List.append_nil _
  have parsed := parse_of_framed framed split margin margin
  dsimp only at parsed
  rwa [bare] at parsed

/-- Steps stand behind any name that closes what it opens. -/
theorem path_steps (raw : List Char) {name : List Char} {steps : List Step} (some : name ≠ [])
    (closed : Closed (· = '.') {} name) (unbracketed : '[' ∉ name)
    (writable : ∀ step ∈ steps, step.IsWritable) :
    path raw (name ++ steps.flatMap Step.print) =
      .ok (String.ofList (translateEscapes name), steps.map Step.segment) := by
  have dots : ∀ c, c = '.' → c ∈ dividers := by simp [dividers]
  have places := Step.writable_leading writable
  have split : splitTop '.' (name ++ steps.flatMap Step.print) =
      (name ++ (Step.leading steps).flatMap Place.print) :: (Step.tokens steps).map Token.text := by
    rw [Step.flatMap_print, ← List.append_assoc]
    have first : Closed (· = '.') {} (name ++ (Step.leading steps).flatMap Place.print) :=
      closed.append (.flatMap fun place mem => (places place mem).closed dots)
    refine splitTop_flatMap first fun piece mem => ?_
    obtain ⟨t, found, rfl⟩ := List.mem_map.mp mem
    exact (Step.writable_tokens writable t found).closed dots
  have named : name.isEmpty = false := by simpa using some
  have unqueried : isQueryToken ((Step.leading steps).flatMap Place.print) = false :=
    isQueryToken_of_isChain (isChain_append_places .nil places)
  simp only [path, split, splitName_places unbracketed, named, unqueried, brackets_print places,
    tokens_text raw (Step.writable_tokens writable), Bool.false_eq_true, if_false,
    Step.map_segment steps]
  rfl

section Printed

variable {root : String} {steps : List Step} (named : IsName root.toList)
  (writable : ∀ step ∈ steps, step.IsWritable)
include named writable

/-- The first token of a printed path. -/
theorem writable_root : Token.IsWritable ⟨root, Step.leading steps⟩ :=
  ⟨named, Step.writable_leading writable⟩

omit named writable in
theorem print_eq : print root steps = Token.text ⟨root, Step.leading steps⟩ ++
    ((Step.tokens steps).map Token.text).flatMap ('.' :: ·) := by
  rw [print, Step.flatMap_print, Token.text, List.append_assoc]

/-- Reading a path gives the root and the steps that it was printed from. -/
theorem path_print (raw : List Char) :
    path raw (print root steps) = .ok (root, steps.map Step.segment) := by
  have steps := path_steps raw named.escape_ne_nil (named.closed (by simp [dividers]))
    (named.not_mem (by decide)) writable
  rwa [named.translateEscapes, String.ofList_toList] at steps

theorem closed_print : Closed IsOperator {} (print root steps) := by
  have operators (c : Char) (operator : IsOperator c) : c ∈ dividers := operator.mem_dividers
  rw [print_eq]
  refine ((writable_root named writable).closed operators).append (.flatMap ?_)
  intro text mem
  obtain ⟨t, found, rfl⟩ := List.mem_map.mp mem
  exact closed_point.append ((Step.writable_tokens writable t found).closed operators)

theorem framed_print : Framed (print root steps) := by
  constructor
  · obtain ⟨c, head, word⟩ := named.begins_append (steps.flatMap Step.print)
    refine ⟨c, head, word.not_blank, ?_⟩
    rintro rfl
    exact word.not_sign (by decide)
  · obtain ⟨c, last, word⟩ := named.escape_ends
    obtain ⟨d, last, word | rfl⟩ := Step.ends_flatMap ⟨c, last, .inl word⟩ writable
    · have sub : ['%', '+', '-', '*', '/'] ⊆ signs := by decide
      exact ⟨d, last, word.not_blank, fun sign => word.not_sign (sub sign)⟩
    · exact ⟨']', last, by decide, by decide⟩

/-- Reading a path undoes printing it. -/
theorem parse_print (left right : Margin) :
    parse (String.ofList (left.text ++ print root steps ++ right.text.reverse)) =
      .ok { expr := String.ofList (print root steps), root,
            segments := steps.map Step.segment, arithmetic := none } := by
  have framed := framed_print named writable
  have some : (print root steps).isEmpty = false := by
    simpa using Text.ne_nil_of_head framed.begins
  rw [parse, String.toList_ofList, parseChars]
  simp only [framed.strip_margins, some, Bool.false_eq_true, if_false,
    splitArithmetic_of_hides (closed_print named writable).hides, path_print named writable]
  rfl

end Printed

/-- A key may hold what would otherwise separate, compute, delimit or ask. -/
theorem parse_print_signs :
    IsName "user".toList ∧
    (∀ step ∈ [Step.property "items", .index (.position 2), .index (.key "a.b+1% \"[*]")],
      step.IsWritable) ∧
    parse " % user.items[2]['a.b+1% \"&lb;*&rb;']% " =
      .ok { expr := "user.items[2]['a.b+1% \"&lb;*&rb;']", root := "user",
            segments := [.property "items", .index (.position 2), .index (.key "a.b+1% \"[*]")],
            arithmetic := none } := by
  have user : IsName "user".toList :=
    ⟨⟨'u', rfl, .inl (by decide)⟩, List.all_iff_forall_prop.mp (by decide)⟩
  have items : IsName "items".toList :=
    ⟨⟨'i', rfl, .inl (by decide)⟩, List.all_iff_forall_prop.mp (by decide)⟩
  have key : IsKey "a.b+1% \"[*]".toList := ⟨by decide, by decide, by decide⟩
  have writable : ∀ step ∈ [Step.property "items", .index (.position 2),
      .index (.key "a.b+1% \"[*]")], step.IsWritable := by
    simp only [List.forall_mem_cons]
    exact ⟨items, ⟨by decide, by decide⟩, key, List.forall_mem_nil _⟩
  have printed : print "user" [.property "items", .index (.position 2),
      .index (.key "a.b+1% \"[*]")] = "user.items[2]['a.b+1% \"&lb;*&rb;']".toList := by decide
  have blank : ∀ c ∈ [' '], Text.isBlank c = true := List.all_iff_forall_prop.mp (by decide)
  refine ⟨user, writable, ?_⟩
  have read := parse_print user writable
    ⟨[' '], some [' '], blank, blank⟩ ⟨[' '], some [], blank, List.forall_mem_nil _⟩
  rw [printed, String.ofList_toList] at read
  exact read

end Plan

end GoalScript
