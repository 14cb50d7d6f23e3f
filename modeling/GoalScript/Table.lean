namespace GoalScript

/-- A finite map, as a list of entries sorted by key. Keys are ordered by code points, which is also
the order of their bytes. -/
abbrev Table (α : Type) := List (String × α)

namespace Table

variable {α β : Type}

def get? (t : Table α) (key : String) : Option α := t.lookup key

def contains (t : Table α) (key : String) : Bool := (t.get? key).isSome

/-- Replaces the entry of an equal key. -/
def insert : Table α → String → α → Table α
  | [], key, value => [(key, value)]
  | (k, v) :: rest, key, value =>
    if key < k then (key, value) :: (k, v) :: rest
    else if key = k then (key, value) :: rest
    else (k, v) :: insert rest key value

def erase (t : Table α) (key : String) : Table α := t.filter fun entry => entry.1 != key

def keys (t : Table α) : List String := t.map Prod.fst

/-- Of entries with equal keys the last one counts. -/
def ofList (entries : List (String × α)) : Table α :=
  entries.foldl (fun t entry => t.insert entry.1 entry.2) []

def mapValues (f : α → β) (t : Table α) : Table β := t.map fun entry => (entry.1, f entry.2)

/-- Keys in strictly increasing order. -/
def Sorted (t : Table α) : Prop := t.keys.Pairwise (· < ·)

end Table

/-- Distinct texts in increasing order. -/
abbrev Names := List String

def Names.insert (names : Names) (name : String) : Names :=
  (Table.insert (names.map (·, ())) name ()).keys

end GoalScript
