import GoalScript.Suggestion

namespace GoalScript

inductive MemoryError where
  | invalidExpression (expr reason : String)
  | propertyNotFound (property typeName : String) (suggestion : Option String)
  | methodNotFound (method typeName : String) (suggestion : Option String)
  | invalidArguments (method : String) (given : Nat) (expected : String)
  | indexOutOfRange (expr : String) (index length : Nat)
  | notIndexable (expr typeName : String)
  | arithmetic (op : Char) (left right : String)
  | invalidQuery (path reason : String)
  | missingSetting (key : String)
deriving Repr, DecidableEq, Inhabited

namespace MemoryError

def key : MemoryError → String
  | .invalidExpression .. => "InvalidExpression"
  | .propertyNotFound .. => "PropertyNotFound"
  | .methodNotFound .. => "MethodNotFound"
  | .invalidArguments .. => "InvalidArguments"
  | .indexOutOfRange .. => "IndexOutOfRange"
  | .notIndexable .. => "NotIndexable"
  | .arithmetic .. => "Arithmetic"
  | .invalidQuery .. => "JsonPath"
  | .missingSetting .. => "MissingSetting"

def message : MemoryError → String
  | .invalidExpression expr reason =>
    "invalid variable expression '" ++ expr ++ "': " ++ reason
  | .propertyNotFound property typeName suggestion =>
    "property '" ++ property ++ "' not found on " ++ typeName ++ Suggestion.text suggestion
  | .methodNotFound method typeName suggestion =>
    "method '" ++ method ++ "' not found on " ++ typeName ++ Suggestion.text suggestion
  | .invalidArguments method given expected =>
    "no overload of '" ++ method ++ "' accepts " ++ toString given ++
      " argument(s) of these types (expects " ++ expected ++ ")"
  | .indexOutOfRange expr index length =>
    "index " ++ toString index ++ " is out of range for '" ++ expr ++ "' (length " ++
      toString length ++ ")"
  | .notIndexable expr typeName => "cannot index into " ++ typeName ++ " in '" ++ expr ++ "'"
  | .arithmetic op left right =>
    "cannot apply '" ++ op.toString ++ "' to " ++ left ++ " and " ++ right
  | .invalidQuery path reason => "invalid JSON path '" ++ path ++ "': " ++ reason
  | .missingSetting key => "setting '" ++ key ++ "' is not set"

end MemoryError

end GoalScript
