import GoalScript.Calendar.Pattern
import GoalScript.Memory.Error
import GoalScript.Text.Search
import GoalScript.Value.Json

namespace GoalScript

inductive ArgumentKind where
  | any | number | text
deriving Repr, DecidableEq

def ArgumentKind.accepts : ArgumentKind → Value → Bool
  | .any, _ => true
  | .number, v => v.number?.isSome
  | .text, v => !v.isStructured

abbrev Answer := Except MemoryError Value

structure Overload where
  kinds : List ArgumentKind
  apply : Value → List Value → Answer

def Overload.accepts (o : Overload) (args : List Value) : Bool :=
  o.kinds.length == args.length && (o.kinds.zip args).all fun (kind, arg) => kind.accepts arg

structure Capability where
  name : String
  overloads : List Overload

namespace Capability

def chars (v : Value) : List Char := v.display.toList

def numberOf (v : Value) : Float := v.number?.getD 0.0

/-- Negative counts and not-a-number are zero. -/
def countOf (v : Value) : Nat := Number.clampedNat Number.max64 (numberOf v)

def ofText (s : List Char) : Value := .text (String.ofList s)

def ofCount (n : Nat) : Value := .number (Float.ofNat n)

def plain (name : String) (f : Value → Value) : Capability :=
  ⟨name, [⟨[], fun v _ => .ok (f v)⟩]⟩

def overload1 (kind : ArgumentKind) (f : Value → Value → Answer) : Overload :=
  ⟨[kind], fun v args => f v (args.getD 0 .null)⟩

def overload2 (kind kind' : ArgumentKind) (f : Value → Value → Value → Answer) : Overload :=
  ⟨[kind, kind'], fun v args => f v (args.getD 0 .null) (args.getD 1 .null)⟩

def unary (name : String) (kind : ArgumentKind) (f : Value → Value → Value) : Capability :=
  ⟨name, [overload1 kind fun v a => .ok (f v a)]⟩

def substring (s : List Char) (start : Nat) (length : Option Nat) : List Char :=
  match length with
  | some n => (s.drop start).take n
  | none => s.drop start

def startsWith (s part : List Char) : Bool := part.isPrefixOf s

def endsWith (s part : List Char) : Bool := part.reverse.isPrefixOf s.reverse

def indexOf (s part : List Char) : Value :=
  match Text.find? part s with
  | some i => ofCount i
  | none => .number (-1.0)

def ofTexts : List Capability := [
  plain "Length" fun v => ofCount (chars v).length,
  plain "ToUpper" fun v => ofText (Text.upper (chars v)),
  plain "ToLower" fun v => ofText (Text.lower (chars v)),
  plain "Trim" fun v => ofText (Text.trim (chars v)),
  unary "Contains" .text fun v a => .bool (Text.contains (chars v) (chars a)),
  unary "StartsWith" .text fun v a => .bool (startsWith (chars v) (chars a)),
  unary "EndsWith" .text fun v a => .bool (endsWith (chars v) (chars a)),
  ⟨"Replace", [overload2 .text .text fun v a b =>
    .ok (ofText (Text.replace (chars a) (chars b) (chars v)))]⟩,
  unary "Split" .text fun v a => .list ((Text.splitOn (chars a) (chars v)).map ofText),
  ⟨"Substring", [
    overload1 .number fun v a => .ok (ofText (substring (chars v) (countOf a) none)),
    overload2 .number .number fun v a b =>
      .ok (ofText (substring (chars v) (countOf a) (some (countOf b))))]⟩,
  unary "IndexOf" .text fun v a => indexOf (chars v) (chars a)]

def items : Value → List Value
  | .list items => items
  | _ => []

/-- Numbers equal what reads as the same number, texts are compared up to ASCII case. -/
def looselySame (a b : Value) : Bool :=
  match a, b with
  | .number x, other => other.number? == some x
  | other, .number x => other.number? == some x
  | .text s, .text t => Text.sameName s t
  | _, _ => a.same b

def join (v : Value) (separator : String) : Value :=
  .text (separator.intercalate ((items v).map Value.display))

/-- Sums start at negative zero, the neutral number of addition. -/
def sum (xs : List Float) : Float := xs.foldl (· + ·) (-0.0)

def ofLists : List Capability := [
  plain "Count" fun v => ofCount (items v).length,
  plain "First" fun v => (items v).head?.getD .null,
  plain "Last" fun v => (items v).getLast?.getD .null,
  unary "Contains" .any fun v a => .bool ((items v).any fun item => looselySame item a),
  ⟨"Join", [⟨[], fun v _ => .ok (join v ",")⟩, overload1 .text fun v a => .ok (join v a.display)]⟩,
  plain "Reverse" fun v => .list (items v).reverse,
  unary "Skip" .number fun v a => .list ((items v).drop (countOf a)),
  unary "Take" .number fun v a => .list ((items v).take (countOf a)),
  plain "Sum" fun v => .number (sum ((items v).filterMap Value.number?))]

def members : Value → List (String × Value)
  | .object members => members
  | _ => []

def ofObjects : List Capability := [
  plain "Count" fun v => ofCount (members v).length,
  plain "Keys" fun v => .list ((members v).map fun m => .text m.1),
  plain "Values" fun v => .list ((members v).map Prod.snd),
  unary "ContainsKey" .text fun v a =>
    .bool ((members v).any fun m => Text.sameName m.1 a.display)]

/-- The power by repeated squaring, `power` running over the squares. -/
def powerFrom (n : Nat) (power result : Float) : Float :=
  let result := if n % 2 == 1 then result * power else result
  if n / 2 = 0 then result else powerFrom (n / 2) (power * power) result
termination_by n
decreasing_by omega

def powerOfTen (n : Int) : Float :=
  let power := powerFrom n.natAbs 10.0 1.0
  if n < 0 then 1.0 / power else power

def roundTo (x places : Float) : Float :=
  let factor := powerOfTen (Number.clamped (-2147483648) 2147483647 places)
  Number.round (x * factor) / factor

def ofNumbers : List Capability := [
  plain "Abs" fun v => .number (numberOf v).abs,
  ⟨"Round", [⟨[], fun v _ => .ok (.number (Number.round (numberOf v)))⟩,
    overload1 .number fun v a => .ok (.number (roundTo (numberOf v) (numberOf a)))]⟩,
  plain "Floor" fun v => .number (Number.floor (numberOf v)),
  plain "Ceiling" fun v => .number (Number.ceil (numberOf v))]

def datePart (name : String) (part : Calendar.Instant → Int) : Capability :=
  plain name fun v => match v with
    | .date t => .number (Float.ofInt (part t))
    | _ => .null

def addToDate (unit : Float) (v amount : Value) : Answer :=
  match v with
  | .date t =>
    let ms := Number.round (numberOf amount * unit)
    let moved := (Number.truncated? ms).bind fun whole =>
      if Calendar.isDuration whole then t.shift? whole else none
    match moved with
    | some t => .ok (.date t)
    | none => .error (.arithmetic '+' v.typeName (Number.plainText ms ++ " ms"))
  | _ => .ok v

def formatDate (v format : Value) : Answer :=
  match v with
  | .date t =>
    match t.format? format.display with
    | some text => .ok (.text text)
    | none => .error (.invalidArguments "ToString" 1
        ("a valid date format, got '" ++ format.display ++ "'"))
  | _ => .ok (.text v.display)

def ofDates : List Capability := [
  datePart "Year" fun t => t.date.year,
  datePart "Month" fun t => t.date.month,
  datePart "Day" fun t => t.date.day,
  datePart "Hour" fun t => t.hour,
  datePart "Minute" fun t => t.minute,
  ⟨"AddDays", [overload1 .number (addToDate 86400000.0)]⟩,
  ⟨"AddHours", [overload1 .number (addToDate 3600000.0)]⟩,
  ⟨"AddMinutes", [overload1 .number (addToDate 60000.0)]⟩,
  ⟨"ToString", [⟨[], fun v _ => .ok (.text v.display)⟩, overload1 .text formatDate]⟩]

def isEmpty : Value → Bool
  | .null => true
  | .text s => s.isEmpty
  | .list items => items.isEmpty
  | .object members => members.isEmpty
  | _ => false

def common : List Capability := [
  plain "ToJson" fun v => .text v.jsonText,
  plain "IsEmpty" fun v => .bool (isEmpty v),
  plain "ToString" fun v => .text v.display,
  plain "Type" fun v => .text v.typeName]

def ofKind : Value → List Capability
  | .text _ => ofTexts
  | .list _ => ofLists
  | .object _ => ofObjects
  | .number _ => ofNumbers
  | .date _ => ofDates
  | _ => []

def all (v : Value) : List Capability := ofKind v ++ common

def find? (v : Value) (name : String) : Option Capability :=
  (all v).find? fun c => Text.sameName c.name name

/-- A capability that takes no arguments can be used like a property. -/
def isProperty (v : Value) (name : String) : Bool :=
  match find? v name with
  | some c => c.overloads.any fun o => o.kinds.isEmpty
  | none => false

def missing (v : Value) (name : String) (asProperty : Bool) : MemoryError :=
  let suggestion := Suggestion.nearest? name ((all v).map Capability.name)
  if asProperty then .propertyNotFound name v.typeName suggestion
  else .methodNotFound name v.typeName suggestion

def invoke (v : Value) (name : String) (args : List Value) (asProperty : Bool) : Answer :=
  match find? v name with
  | none => .error (missing v name asProperty)
  | some c =>
    match c.overloads.find? fun o => o.accepts args with
    | some o => o.apply v args
    | none => .error (.invalidArguments c.name args.length
        (" or ".intercalate (c.overloads.map fun o => toString o.kinds.length)))

end Capability

end GoalScript
