import GoalScript.Json.Basic

namespace GoalScript.Toml

inductive Origin where
  | header
  | path
  | dottedKey
deriving Repr, Inhabited, DecidableEq

inductive Item where
  | value (json : Json)
  | table (origin : Origin) (members : List (String × Item))
  -- Tables of one header each, newest first.
  | tables (elements : List (List (String × Item)))
deriving Inhabited

abbrev Members := List (String × Item)

mutual

def Item.toJson : Item → Json
  | .value json => json
  | .table _ members => .object (membersToJson members)
  | .tables elements => .array (elementsToJson elements).reverse

def membersToJson : List (String × Item) → List (String × Json)
  | [] => []
  | (key, item) :: rest => (key, item.toJson) :: membersToJson rest

def elementsToJson : List (List (String × Item)) → List Json
  | [] => []
  | members :: rest => .object (membersToJson members) :: elementsToJson rest

end

namespace Members

def toJson (members : Members) : Json := .object (membersToJson members)

def alter (f : Option Item → Option Item) (key : String) : Members → Option Members
  | [] => (f none).map fun item => [(key, item)]
  | (k, item) :: rest =>
    if k = key then (f (some item)).map fun item => (k, item) :: rest
    else (alter f key rest).map ((k, item) :: ·)

/-- Changes the item at the end of a header's path. The path leads through tables and through the
newest element of each list of tables; tables that are missing are made. -/
def reach (finish : Option Item → Option Item) : List String → Members → Option Members
  | [], _ => none
  | [key], members => members.alter finish key
  | key :: path, members =>
    members.alter (fun item =>
      match item with
      | none => (reach finish path []).map (.table .path)
      | some (.table origin inner) => (reach finish path inner).map (.table origin)
      | some (.tables (newest :: earlier)) =>
        (reach finish path newest).map fun t => .tables (t :: earlier)
      | some _ => none) key

/-- Sets a new key. A dotted key leads only through tables without a header, and ends in one that
dotted keys have made; `isOpen` tells whether the key may end here. -/
def assign (json : Json) (isOpen : Bool) : List String → Members → Option Members
  | [], _ => none
  | [key], members =>
    members.alter (fun item => if isOpen && item.isNone then some (.value json) else none) key
  | key :: path, members =>
    members.alter (fun item =>
      match item with
      | none => (assign json true path []).map (.table .dottedKey)
      | some (.table .header _) => none
      | some (.table origin inner) =>
        (assign json (origin = .dottedKey) path inner).map (.table origin)
      | some (.tables (newest :: earlier)) =>
        (assign json false path newest).map fun t => .tables (t :: earlier)
      | some _ => none) key

end Members

/-- A table may be opened by its header once, unless dotted keys have made it. -/
def openTable : Option Item → Option Item
  | none => some (.table .header [])
  | some (.table .path members) => some (.table .header members)
  | _ => none

/-- A list of tables gets a new element. -/
def openElement : Option Item → Option Item
  | none => some (.tables [[]])
  | some (.tables elements) => some (.tables ([] :: elements))
  | _ => none

structure Document where
  root : Members := []
  -- The path of the last header.
  current : List String := []
deriving Inhabited

namespace Document

def openHeader (d : Document) (path : List String) (isElement : Bool) : Option Document :=
  (d.root.reach (if isElement then openElement else openTable) path).map fun root =>
    { root, current := path }

def assign (d : Document) (key : List String) (json : Json) : Option Document :=
  let fill (item : Option Item) : Option Item :=
    match item with
    | some (.table origin members) => (Members.assign json true key members).map (.table origin)
    | some (.tables (newest :: earlier)) =>
      (Members.assign json true key newest).map fun t => .tables (t :: earlier)
    | _ => none
  let root :=
    if d.current.isEmpty then d.root.assign json true key else d.root.reach fill d.current
  root.map fun root => { d with root }

end Document

end GoalScript.Toml
