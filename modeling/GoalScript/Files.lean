import GoalScript.Table

namespace GoalScript

inductive FileError where
  | missing
  | isDirectory
  | notDirectory
  | unreadable (reason : String)
deriving Repr, Inhabited, DecidableEq

def FileError.message : FileError → String
  | .missing => "No such file or directory (os error 2)"
  | .isDirectory => "Is a directory (os error 21)"
  | .notDirectory => "Not a directory (os error 20)"
  | .unreadable reason => reason

/-- Files are seen through a function that reads the text at a path. -/
abbrev FileReader (m : Type → Type) := String → m (Except FileError String)

def pathParts (path : String) : List String :=
  (path.splitOn "/").filter fun part => part != "" && part != "."

namespace FileReader

def inDirectory (files : Table String) (parts : List String) (needsDirectory : Bool) :
    Except FileError String :=
  match files.get? ("/".intercalate parts) with
  | some text => if needsDirectory then .error .notDirectory else .ok text
  | none =>
    let isBelowFile := (List.range parts.length).any fun n =>
      files.contains ("/".intercalate (parts.take n))
    let isAboveFile := files.keys.any fun name => parts.isPrefixOf (pathParts name)
    .error (if isBelowFile then .notDirectory else if isAboveFile then .isDirectory else .missing)

/-- Files held in one directory, which is also where relative paths start. -/
def ofTable (directory : String) (files : Table String) : FileReader Id := fun path =>
  let parts := pathParts path
  let home := pathParts directory
  if home.isPrefixOf parts then inDirectory files (parts.drop home.length) (path.endsWith "/")
  else if path.startsWith "/" then .error .missing
  else inDirectory files parts (path.endsWith "/")

end FileReader

end GoalScript
