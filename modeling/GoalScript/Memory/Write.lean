import GoalScript.Memory.Resolve

namespace GoalScript

inductive Place where
  | key (k : String)
  | position (n : Nat)
deriving Repr, DecidableEq, Inhabited

inductive Scope where
  | own | shared
deriving Repr, DecidableEq, Inhabited

namespace Value

def storedName (members : List (String × Value)) (name : String) : String :=
  ((findMember? members name).map Prod.fst).getD name

def emptyFor : Place → Value
  | .position _ => .list []
  | .key _ => .object []

/-- Containers are made on the way; a list grows by one at most. -/
def assign (expr : String) (new : Value) : List Place → Value → Resolved Value
  | [], _ => .ok new
  | place :: rest, v =>
    let target := if v.isNull then emptyFor place else v
    match target, place with
    | .object members, .key k => do
      let name := storedName members k
      let inner ← assign expr new rest ((members.lookup name).getD .null)
      return .object (Table.insert members name inner)
    | .object members, .position n => do
      let name := toString n
      let inner ← assign expr new rest ((members.lookup name).getD .null)
      return .object (Table.insert members name inner)
    | .list items, .position n =>
      if n == 0 || items.length + 1 < n then .error (.indexOutOfRange expr n items.length)
      else do
        let inner ← assign expr new rest (items.getD (n - 1) .null)
        return .list (items.take (n - 1) ++ inner :: items.drop n)
    | other, _ => .error (.notIndexable expr other.typeName)

/-- Takes out the place at the end of a path; where the path leads nowhere, nothing changes. -/
def removeAt : List Place → Value → Value
  | [], v => v
  | [place], v =>
    match v, place with
    | .object members, .key k => .object (Table.erase members (storedName members k))
    | .object members, .position n => .object (Table.erase members (toString n))
    | .list items, .position n => if n == 0 then v else .list (items.eraseIdx (n - 1))
    | v, _ => v
  | place :: rest, v =>
    match v, place with
    | .object members, .key k =>
      match findMember? members k with
      | some (name, inner) => .object (Table.insert members name (removeAt rest inner))
      | none => v
    | .object members, .position n =>
      match members.lookup (toString n) with
      | some inner => .object (Table.insert members (toString n) (removeAt rest inner))
      | none => v
    | .list items, .position n =>
      if n == 0 then v
      else match items[n - 1]? with
        | some inner => .list (items.set (n - 1) (removeAt rest inner))
        | none => v
    | v, _ => v

end Value

namespace Store

def placeOfWord (word : String) : Value → Place
  | .null => .key word
  | .number x =>
    if 1.0 ≤ x && Number.isWhole x then .position (Number.clampedNat Number.max64 x)
    else .key (Value.number x).display
  | v => .key v.display

def placeOfBy (meaning : String → Resolved Value) (plan : Plan) : Segment → Resolved Place
  | .property name => .ok (.key name)
  | .index (.position n) => .ok (.position n)
  | .index (.key k) => .ok (.key k)
  | .index (.lookup word) => (meaning word).map (placeOfWord word)
  | _ => .error (.invalidExpression plan.expr
      "cannot assign through a method call or JSON path")

/-- Where the plan leads a writer when the texts inside it mean this. -/
def placesBy (meaning : String → Resolved Value) (plan : Plan) : Resolved (List Place) :=
  plan.segments.mapM (placeOfBy meaning plan)

def places (s : Store) : Plan → Resolved (List Place) := placesBy s.getValue

def rootOf (expr : String) : String × String :=
  match Plan.parse expr with
  | .ok plan => (plan.root, Text.lowercase plan.root)
  | .error _ => (String.ofList (Text.trimWhile (· == '%') expr.toList), variableKey expr)

/-- A variable that is only shared is changed where it is. -/
def scopeOf (s : Store) (expr : String) : Scope :=
  let key := (rootOf expr).2
  if !s.memory.vars.contains key && s.shared.vars.contains key then .shared else .own

def inScope (s : Store) (key : String) : Scope → Option Variable
  | .own => s.memory.vars.get? key
  | .shared => s.shared.vars.get? key

def setInScope (s : Store) (key : String) (v : Variable) : Scope → Store
  | .own => { s with memory := { s.memory with vars := s.memory.vars.insert key v } }
  | .shared => { s with shared := { s.shared with vars := s.shared.vars.insert key v } }

/-- Triggers the variable's subscriptions to one kind of event, unless an event goal runs. -/
def queue (s : Store) (v : Variable) (type : EventType) (value : Value) : Store :=
  if s.memory.inEvent then s
  else
    let triggered := (v.subscriptions.filter fun sub => sub.eventType == type).map fun sub =>
      { variableName := v.name, value, subscription := sub : PendingEvent }
    { s with memory := { s.memory with pending := s.memory.pending ++ triggered } }

def writeSetting (s : Store) (plan : Plan) (value : Value) : Resolved Store :=
  match settingKey? plan.segments with
  | some (name, []) =>
    .ok { s with shared := { s.shared with
      settings := s.shared.settings.set Settings.appOwner name value.toJson } }
  | _ => .error (.invalidExpression plan.expr "expected Settings.<key>")

def writeVariableBy (meaning : String → Resolved Value) (s : Store) (plan : Plan) (value : Value)
    (scope : Scope) : Resolved Store := do
  let key := Text.lowercase plan.root
  let existing := s.inScope key scope
  let current := existing.filter Variable.isSet
  let new ←
    if plan.segments.isEmpty then .ok value
    else do
      let places ← placesBy meaning plan
      Value.assign plan.expr value places ((current.map Variable.value).getD .null)
  let written : Variable := {
    name := plan.root
    value := new
    subscriptions := (existing.map Variable.subscriptions).getD [] }
  let type := if current.isSome then EventType.onChange else EventType.onCreate
  return (s.queue written type new).setInScope key written scope

def writeToBy (meaning : String → Resolved Value) (s : Store) (expr : String) (value : Value)
    (scope : Scope) : Resolved Store := do
  let plan ← Plan.parse expr
  let value := value.structured
  let key := Text.lowercase plan.root
  if plan.arithmetic.isSome then
    .error (.invalidExpression plan.expr "cannot assign to an arithmetic expression")
  else if key == "settings" then s.writeSetting plan value
  else if key == "now" || key == "nowutc" then
    .error (.invalidExpression plan.expr ("'" ++ plan.root ++ "' is read-only"))
  else writeVariableBy meaning s plan value scope

def writeVariable (s : Store) : Plan → Value → Scope → Resolved Store :=
  s.writeVariableBy s.getValue

def writeTo (s : Store) : String → Value → Scope → Resolved Store := s.writeToBy s.getValue

def put (s : Store) (expr : String) (value : Value) : Resolved Store :=
  s.writeTo expr value (s.scopeOf expr)

def putShared (s : Store) (expr : String) (value : Value) : Resolved Store :=
  s.writeTo expr value .shared

/-- Removes what the expression leads to when the texts inside it mean this. A removed variable
keeps its subscriptions. -/
def removeBy (meaning : String → Resolved Value) (s : Store) (expr : String) : Resolved Store := do
  let plan ← Plan.parse expr
  let key := Text.lowercase plan.root
  let scope := s.scopeOf expr
  match (s.inScope key scope).filter Variable.isSet with
  | none => return s
  | some v =>
    if plan.segments.isEmpty then
      let removed := { Variable.absent v.name with subscriptions := v.subscriptions }
      return (s.queue v .onRemove .null).setInScope key removed scope
    else
      let places ← placesBy meaning plan
      let new := Value.removeAt places v.value
      return (s.queue v .onChange new).setInScope key
        { name := v.name, value := new, subscriptions := v.subscriptions } scope

def remove (s : Store) : String → Resolved Store := s.removeBy s.getValue

def subscribe (s : Store) (expr : String) (sub : Subscription) : Store :=
  let (name, key) := rootOf expr
  let scope := s.scopeOf expr
  let v := (s.inScope key scope).getD (.absent name)
  s.setInScope key { v with subscriptions := sub.addTo v.subscriptions } scope

def unsubscribe (s : Store) (expr goalName : String) (type : Option EventType) : Store :=
  let key := (rootOf expr).2
  let scope := s.scopeOf expr
  match s.inScope key scope with
  | none => s
  | some v =>
    let kept := v.subscriptions.filter fun sub =>
      !(Text.sameName sub.goalName goalName && (type.isNone || type == some sub.eventType))
    s.setInScope key { v with subscriptions := kept } scope

end Store

end GoalScript
