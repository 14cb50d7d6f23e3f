import GoalScript.Json.Record
import GoalScript.Text.Case

namespace GoalScript

structure Settings where
  owners : Table (Table Json) := []
deriving Repr, Inhabited

namespace Settings

def appOwner : String := "app"

/-- The owner of the ledger of steps that run only once. -/
def ledgerOwner : String := "run_once"

def ofOwner (s : Settings) (owner : String) : Table Json :=
  (s.owners.get? (Text.lowercase owner)).getD []

def get? (s : Settings) (owner key : String) : Option Json :=
  (s.ofOwner owner).get? (Text.lowercase key)

def set (s : Settings) (owner key : String) (value : Json) : Settings :=
  ⟨s.owners.insert (Text.lowercase owner) ((s.ofOwner owner).insert (Text.lowercase key) value)⟩

def remove (s : Settings) (owner key : String) : Settings :=
  ⟨s.owners.insert (Text.lowercase owner) ((s.ofOwner owner).erase (Text.lowercase key))⟩

def ofApp (values : Table Json) : Settings :=
  values.foldl (fun s entry => s.set appOwner entry.1 entry.2) {}

/-- What is missing or of another type gives the default. -/
def getOr {α : Type} (s : Settings) (owner key : String) (default : α) (read : Json → Option α) :
    α :=
  ((s.get? owner key).bind read).getD default

end Settings

end GoalScript
