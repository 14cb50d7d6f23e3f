import GoalScript.Text.Span

namespace GoalScript.Text

def blankSpans : List (Nat × Nat) := [
  (9, 13), (32, 32), (133, 133), (160, 160), (5760, 5760), (8192, 8202), (8232, 8233),
  (8239, 8239), (8287, 8287), (12288, 12288)]

def isBlank (c : Char) : Bool := within blankSpans c.toNat

def trimLeft (s : List Char) : List Char := s.dropWhile isBlank

def trimRightWhile (p : Char → Bool) (s : List Char) : List Char := (s.reverse.dropWhile p).reverse

def trimRight (s : List Char) : List Char := trimRightWhile isBlank s

/-- Drops from both ends while the characters satisfy `p`. -/
def trimWhile (p : Char → Bool) (s : List Char) : List Char := trimRightWhile p (s.dropWhile p)

def trim (s : List Char) : List Char := trimWhile isBlank s

/-- The maximal runs of characters that are not blank. -/
def words (s : List Char) : List (List Char) :=
  (s.splitOnP isBlank).filter (fun w => !w.isEmpty)

end GoalScript.Text
