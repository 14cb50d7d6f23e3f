import GoalScript.Json.Reader

namespace GoalScript.Toml

def isBlank (c : Char) : Bool := c == ' ' || c == '\t'

def skipBlank (s : List Char) : List Char := s.dropWhile isBlank

/-- What may stand in a comment or a text of one line: no control character but the tab. -/
def isPlain (c : Char) : Bool := c == '\t' || (32 ≤ c.toNat && c.toNat != 127)

def shortEscape? : Char → Option Char
  | '"' => some '"'
  | '\\' => some '\\'
  | 'b' => some '\x08'
  | 'f' => some '\x0c'
  | 'n' => some '\n'
  | 'r' => some '\r'
  | 't' => some '\t'
  | _ => none

/-- The character whose number is written in hexadecimal digits; surrogates are none. -/
def hexChar? (digits : List Char) : Option Char := do
  let values ← digits.mapM Json.hexValue?
  let n := values.foldl (fun n v => 16 * n + v) 0
  if n.isValidChar then some (Char.ofNat n) else none

def escape? : List Char → Option (Char × List Char)
  | 'u' :: a :: b :: c :: d :: rest => (hexChar? [a, b, c, d]).map (·, rest)
  | 'U' :: a :: b :: c :: d :: e :: f :: g :: h :: rest =>
    (hexChar? [a, b, c, d, e, f, g, h]).map (·, rest)
  | c :: rest => (shortEscape? c).map (·, rest)
  | [] => none

theorem length_of_escape? {s rest : List Char} {c : Char} (h : escape? s = some (c, rest)) :
    rest.length < s.length := by
  unfold escape? at h
  split at h <;> simp only [Option.map_eq_some_iff, Prod.mk.injEq, reduceCtorEq] at h
  all_goals
    obtain ⟨_, _, _, rfl⟩ := h
    simp only [List.length_cons]
    omega

def readBasic (s : List Char) : Option (List Char × List Char) :=
  match s with
  | [] => none
  | '"' :: rest => some ([], rest)
  | '\\' :: rest =>
    match _ : escape? rest with
    | some (c, tail) => (readBasic tail).map fun r => (c :: r.1, r.2)
    | none => none
  | c :: rest => if isPlain c then (readBasic rest).map fun r => (c :: r.1, r.2) else none
termination_by s.length
decreasing_by
  · have := length_of_escape? ‹escape? _ = _›
    simp only [List.length_cons]
    omega
  · simp

def readLiteral : List Char → Option (List Char × List Char)
  | [] => none
  | '\x27' :: rest => some ([], rest)
  | c :: rest => if isPlain c then (readLiteral rest).map fun r => (c :: r.1, r.2) else none

/-- After three closing quotes, up to two more still belong to the text. -/
def closing (quote : Char) (rest : List Char) : List Char × List Char :=
  let extra := (rest.takeWhile (· == quote)).take 2
  (extra, rest.drop extra.length)

def endsLine (s : List Char) : Bool :=
  match skipBlank s with
  | '\n' :: _ => true
  | '\r' :: '\n' :: _ => true
  | _ => false

/-- A basic text of several lines. A backslash that ends its line joins it to the next character
that is neither blank nor a line end; `joining` tells that this character is still to come. -/
def readBasicLines (joining : Bool) (s : List Char) : Option (List Char × List Char) :=
  match s with
  | [] => none
  | '"' :: '"' :: '"' :: rest => some (closing '"' rest)
  | '\r' :: '\n' :: rest =>
    if joining then readBasicLines true rest
    else (readBasicLines false rest).map fun r => ('\n' :: r.1, r.2)
  | '\\' :: rest =>
    if endsLine rest then readBasicLines true rest
    else match _ : escape? rest with
      | some (c, tail) => (readBasicLines false tail).map fun r => (c :: r.1, r.2)
      | none => none
  | c :: rest =>
    if joining && (isBlank c || c == '\n') then readBasicLines true rest
    else if isPlain c || c == '\n' then
      (readBasicLines false rest).map fun r => (c :: r.1, r.2)
    else none
termination_by s.length
decreasing_by
  all_goals simp only [List.length_cons]
  all_goals try omega
  · have := length_of_escape? ‹escape? _ = _›
    omega

def readLiteralLines : List Char → Option (List Char × List Char)
  | [] => none
  | '\x27' :: '\x27' :: '\x27' :: rest => some (closing '\x27' rest)
  | '\r' :: '\n' :: rest => (readLiteralLines rest).map fun r => ('\n' :: r.1, r.2)
  | c :: rest =>
    if isPlain c || c == '\n' then (readLiteralLines rest).map fun r => (c :: r.1, r.2) else none

/-- A line end right after the opening quotes does not count. -/
def dropLineEnd : List Char → List Char
  | '\n' :: rest => rest
  | '\r' :: '\n' :: rest => rest
  | s => s

def readText : List Char → Option (List Char × List Char)
  | '"' :: '"' :: '"' :: rest => readBasicLines false (dropLineEnd rest)
  | '"' :: rest => readBasic rest
  | '\x27' :: '\x27' :: '\x27' :: rest => readLiteralLines (dropLineEnd rest)
  | '\x27' :: rest => readLiteral rest
  | _ => none

end GoalScript.Toml
