import GoalScript.Module.Builtin

namespace GoalScript

/-- Which module answers to a name. Names are kept by lower case; an alias sends a name to another
one. -/
structure Registry where
  modules : Table Module := []
  aliases : Table String := []
  disabled : Names := []
  removed : Names := []
deriving Inhabited

namespace Registry

/-- Registering a removed module brings it back. -/
def register (r : Registry) (name : String) (m : Module) : Registry :=
  let key := Text.lowercase name
  { r with modules := r.modules.insert key m, removed := r.removed.erase key }

def addAlias (r : Registry) (name target : String) : Registry :=
  { r with aliases := r.aliases.insert (Text.lowercase name) (Text.lowercase target) }

def clearAlias (r : Registry) (name : String) : Registry :=
  { r with aliases := Table.erase r.aliases (Text.lowercase name) }

def disable (r : Registry) (name : String) : Registry :=
  { r with disabled := r.disabled.insert (Text.lowercase name) }

def enable (r : Registry) (name : String) : Registry :=
  { r with disabled := r.disabled.erase (Text.lowercase name) }

def remove (r : Registry) (name : String) : Registry :=
  let key := Text.lowercase name
  { r with modules := Table.erase r.modules key, removed := r.removed.insert key }

def isDisabled (r : Registry) (name : String) : Bool := r.disabled.contains (Text.lowercase name)

def target (r : Registry) (name : String) : String :=
  (r.aliases.get? (Text.lowercase name)).getD (Text.lowercase name)

def contains (r : Registry) (name : String) : Bool := r.modules.contains (r.target name)

def names (r : Registry) : List String := r.modules.keys

def get (r : Registry) (name : String) : Except RegistryError Module :=
  if r.isDisabled name then .error (.disabled name)
  else match r.modules.get? (r.target name) with
    | some m => .ok m
    | none =>
      if r.removed.contains (r.target name) then .error (.removed name)
      else .error (.notRegistered name (Suggestion.nearest? name r.names))

def withBuiltins : Registry := Builtin.all.foldl (fun r m => r.register m.name m) {}

end Registry

/-- A handle onto a registry. Handles with one stamp share what they point at; a change through a
handle gives it a fresh stamp and leaves the others as they were. -/
structure Handle where
  registry : Registry
  stamp : Nat
deriving Inhabited

namespace Handle

def sharesWith (h g : Handle) : Bool := h.stamp == g.stamp

def change (h : Handle) (fresh : Nat) (f : Registry → Registry) : Handle := ⟨f h.registry, fresh⟩

end Handle

end GoalScript
