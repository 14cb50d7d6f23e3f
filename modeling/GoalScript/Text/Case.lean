import GoalScript.Text.CaseTable

namespace GoalScript.Text

/-- Equal up to the case of ASCII letters. -/
def eqIgnoringCase (s t : List Char) : Bool := s.map Char.toLower == t.map Char.toLower

def isCased (c : Char) : Bool := within casedSpans c.toNat

def isCaseIgnorable (c : Char) : Bool := within ignorableSpans c.toNat

def lowerLetter (c : Char) : List Char :=
  if c.toNat < 128 then [c.toLower]
  else if c.toNat == 0x130 then ['i', Char.ofNat 0x307]
  else match CaseRun.map? lowerRuns c.toNat with
    | some d => [Char.ofNat d]
    | none => [c]

def upperLetter (c : Char) : List Char :=
  if c.toNat < 128 then [c.toUpper]
  else match upperExpansions.lookup c.toNat with
    | some ds => ds.map Char.ofNat
    | none => match CaseRun.map? upperRuns c.toNat with
      | some d => [Char.ofNat d]
      | none => [c]

/-- The first character that is not case-ignorable is a cased letter. -/
def startsCased (s : List Char) : Bool :=
  match s.dropWhile isCaseIgnorable with
  | c :: _ => isCased c
  | [] => false

/-- `before` holds what precedes the rest, nearest first. A capital sigma that ends a word becomes
a final sigma. -/
def lowerAfter (before : List Char) : List Char → List Char
  | [] => []
  | c :: rest =>
    (if c.toNat == 0x3A3 then
      if startsCased before && !startsCased rest then [Char.ofNat 0x3C2] else [Char.ofNat 0x3C3]
    else lowerLetter c) ++ lowerAfter (c :: before) rest

def lower (s : List Char) : List Char := lowerAfter [] s

def upper (s : List Char) : List Char := s.flatMap upperLetter

def lowercase (s : String) : String := String.ofList (lower s.toList)

def uppercase (s : String) : String := String.ofList (upper s.toList)

def sameName (s t : String) : Bool := eqIgnoringCase s.toList t.toList

end GoalScript.Text
