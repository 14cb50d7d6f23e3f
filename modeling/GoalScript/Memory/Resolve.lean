import GoalScript.Capability
import GoalScript.Memory.Basic
import GoalScript.Query

namespace GoalScript

abbrev Resolved := Except MemoryError

namespace Value

/-- A property of a list that is no capability is collected from the elements. -/
def property (v : Value) (name : String) : Answer :=
  match v with
  | .object _ =>
    match v.member? name with
    | some found => .ok found
    | none =>
      if Capability.isProperty (.object []) name then Capability.invoke v name [] true
      else .ok .null
  | .list _ =>
    if Capability.isProperty v name then Capability.invoke v name [] true
    else (Query.query v ("$[*]['" ++ name ++ "']")).map .list
  | .null =>
    if Capability.isProperty .null name then Capability.invoke .null name [] true else .ok .null
  | v => Capability.invoke v name [] true

/-- Positions in lists count from 1; in objects they are keys. -/
def atPosition (expr : String) (v : Value) (n : Nat) : Answer :=
  match v with
  | .list items =>
    if n == 0 then .error (.indexOutOfRange expr n items.length)
    else match items[n - 1]? with
      | some item => .ok item
      | none => .error (.indexOutOfRange expr n items.length)
  | .object _ => .ok ((v.member? (toString n)).getD .null)
  | .null => .ok .null
  | v => .error (.notIndexable expr v.typeName)

def atKey (expr : String) (v : Value) (key : String) : Answer :=
  match v with
  | .object _ => .ok ((v.member? key).getD .null)
  | .null => .ok .null
  | v => .error (.notIndexable expr v.typeName)

/-- A bare word in brackets that is no key stands for the value of a variable; an unset one stands
for itself. -/
def atWord (expr : String) (v : Value) (word : String) (meaning : Value) : Answer :=
  match meaning, v with
  | .null, _ => v.atKey expr word
  | .number x, .list _ =>
    if 1.0 ≤ x then v.atPosition expr (Number.clampedNat Number.max64 x)
    else v.atKey expr meaning.display
  | _, _ => v.atKey expr meaning.display

def query (v : Value) (path : String) : Answer :=
  match v with
  | .null => .ok .null
  | v =>
    if v.isStructured then Query.select v path
    else .error (.invalidQuery path (v.typeName ++ " is not a structured value"))

def arithmeticError (op : Operator) (left : Value) (right : String) : MemoryError :=
  .arithmetic op.symbol left.typeName right

def zeroIfNull : Value → Value
  | .null => .number 0.0
  | v => v

def shift (op : Operator) (left : Value) (ms : Int) : Answer :=
  let moved := match left, op with
    | .date t, .add => t.shift? ms
    | .date t, .sub => t.shift? (-ms)
    | _, _ => none
  match moved with
  | some t => .ok (.date t)
  | none => .error (arithmeticError op left "duration")

/-- What reads as a number is calculated with; a text can also have something appended. -/
def calculate (op : Operator) (left right : Value) : Answer :=
  let left := left.zeroIfNull
  let right := right.zeroIfNull
  match left.number?, right.number? with
  | some a, some b =>
    match op with
    | .add => .ok (.number (a + b))
    | .sub => .ok (.number (a - b))
    | .mul => .ok (.number (a * b))
    | .div =>
      if b == 0.0 then .error (arithmeticError op left "zero") else .ok (.number (a / b))
  | _, _ =>
    match left, op with
    | .text s, .add => .ok (.text (s ++ right.display))
    | _, _ => .error (arithmeticError op left right.typeName)

end Value

/-- Failures that stand for a name not known yet. -/
def MemoryError.isUnknownName : MemoryError → Bool
  | .propertyNotFound .. => true
  | .methodNotFound .. => true
  | .invalidQuery .. => true
  | .notIndexable .. => true
  | _ => false

def Arithmetic.isShift (a : Arithmetic) : Bool :=
  match a.operand with
  | .duration _ => true
  | _ => false

namespace Store

def setting (s : Store) (key : String) : Resolved Variable :=
  match s.shared.settings.get? Settings.appOwner key with
  | some json => .ok { name := "Settings." ++ key, value := .ofJson json }
  | none =>
    if s.memory.buildMode then .ok (.placeholder ("Settings." ++ key))
    else .error (.missingSetting key)

def settingKey? : List Segment → Option (String × List Segment)
  | .property key :: rest => some (key, rest)
  | .index (.key key) :: rest => some (key, rest)
  | _ => none

section

-- What the texts inside an expression stand for.
variable (meaning : String → Resolved Value)

def argumentsBy : List Argument → Resolved (List Value)
  | [] => .ok []
  | .literal v :: rest => (argumentsBy rest).map (v :: ·)
  | .reference inner :: rest => do
    let v ← meaning inner
    return v :: (← argumentsBy rest)

def indexBy (shown : String) (v : Value) : Index → Resolved Value
  | .position n => v.atPosition shown n
  | .key k => v.atKey shown k
  | .lookup word =>
    match v.member? word with
    | some found => .ok found
    | none => do v.atWord shown word (← meaning word)

def segmentBy (shown : String) (v : Value) : Segment → Resolved Value
  | .property name => v.property name
  | .index i => indexBy meaning shown v i
  | .method name args => do Capability.invoke v name (← argumentsBy meaning args) false
  | .query path => v.query path

def segmentsBy (shown : String) (v : Value) : List Segment → Resolved Value
  | [] => .ok v
  | segment :: rest => do
    let v ← segmentBy meaning shown v segment
    segmentsBy shown v rest

def arithmeticBy (v : Value) (a : Arithmetic) : Resolved Value :=
  match a.operand with
  | .number x => v.calculate a.op (.number x)
  | .duration ms => v.shift a.op ms
  | .reference inner => do v.calculate a.op (← meaning inner)

/-- Arithmetic on an unset variable counts from zero. -/
def absentRootBy (s : Store) (plan : Plan) : Resolved Variable :=
  let absent := { Variable.absent plan.expr with parent := plan.parent? }
  match plan.arithmetic, plan.segments with
  | some a, [] =>
    if a.isShift then .ok absent
    else do return { name := plan.expr, value := ← arithmeticBy meaning (.number 0.0) a }
  | _, [] => .ok absent
  | _, _ => .ok (if s.memory.buildMode then .placeholder plan.expr else absent)

def navigateBy (s : Store) (plan : Plan) (base : Variable) (segments : List Segment) :
    Resolved Variable :=
  if segments.isEmpty && plan.arithmetic.isNone then .ok base
  else match segmentsBy meaning plan.expr base.value segments with
    | .error e =>
      if s.memory.buildMode && e.isUnknownName then .ok (.placeholder plan.expr) else .error e
    | .ok v => do
      let v ← match plan.arithmetic with
        | some a => arithmeticBy meaning v a
        | none => .ok v
      return { name := plan.expr, value := v, parent := plan.parent? }

/-- What the plan stands for when the texts inside it mean this. -/
def resolvePlanBy (s : Store) (plan : Plan) : Resolved Variable :=
  let key := Text.lowercase plan.root
  if key == "now" || key == "nowutc" then
    navigateBy meaning s plan { name := plan.root, value := .date s.now } plan.segments
  else if key == "settings" then
    match settingKey? plan.segments with
    | some (name, rest) => do navigateBy meaning s plan (← s.setting name) rest
    | none => .error (.invalidExpression plan.expr "expected Settings.<key>")
  else match s.lookup? key with
    | some v =>
      if v.isSet then navigateBy meaning s plan v plan.segments else absentRootBy meaning s plan
    | none => absentRootBy meaning s plan

end

/-- The variable, or the value reached from one, that an expression stands for. The texts inside it
are shorter; parsing finds no others. -/
def get (s : Store) (expr : String) : Resolved Variable := do
  let plan ← Plan.parse expr
  s.resolvePlanBy (fun inner =>
    if _shorter : inner.length < expr.length then (s.get inner).map Variable.value
    else .error (.invalidExpression inner "empty expression")) plan
termination_by expr.length

def getValue (s : Store) (expr : String) : Resolved Value := (s.get expr).map Variable.value

end Store

end GoalScript
