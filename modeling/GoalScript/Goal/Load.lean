import GoalScript.Files
import GoalScript.Goal.File
import GoalScript.Json.Reader
import GoalScript.Toml.Reader

namespace GoalScript

inductive FileFormat where
  | json
  | toml
deriving Repr, Inhabited, DecidableEq

def fileName? (path : String) : Option String :=
  match (pathParts path).getLast? with
  | some name => if name == ".." then none else some name
  | none => none

/-- What follows the last point of a file's name, unless that point starts the name. -/
def extension? (path : String) : Option String := do
  let name := (← fileName? path).toList.reverse
  match name.dropWhile (· != '.') with
  | _ :: _ :: _ => some (String.ofList (name.takeWhile (· != '.')).reverse)
  | _ => none

def FileFormat.ofPath (path : String) : FileFormat :=
  if (extension? path).any (Text.sameName · "toml") then .toml else .json

def momentToJson (moment : String) : Json :=
  .object [("$__toml_private_datetime", .text moment)]

def FileFormat.read : FileFormat → List Char → Option Json
  | .json, s => Json.readShape LibraryFile.shape s
  | .toml, s => (Toml.read momentToJson s).map (Json.select LibraryFile.shape)

def LibraryFile.read? (format : FileFormat) (text : String) : Option LibraryFile :=
  (format.read text.toList).bind ofJson?

inductive GoalFileError where
  | unreadable (path : String) (error : FileError)
  | malformed (path : String)
deriving Repr, Inhabited, DecidableEq

def GoalFileError.message : GoalFileError → String
  | .unreadable path error => "failed to read " ++ path ++ ": " ++ error.message
  | .malformed path => "invalid goal file " ++ path

/-- The library of a goal file; the extension of the path tells the format. -/
def Library.load {m : Type → Type} [Monad m] (readFile : FileReader m) (path : String) :
    m (Except GoalFileError Library) := do
  match ← readFile path with
  | .error e => return .error (.unreadable path e)
  | .ok text =>
    match LibraryFile.read? (.ofPath path) text with
    | some file => return .ok (.ofFile file)
    | none => return .error (.malformed path)

end GoalScript
