import GoalScript.Calendar.Date
import GoalScript.Number.Reader

namespace GoalScript.Calendar

/-- Seconds since 1970-01-01 and nanoseconds within the second; a leap second counts on from its
predecessor, with a thousand million nanoseconds or more. -/
structure Instant where
  seconds : Int
  nanos : Nat
deriving Repr, DecidableEq

def Instant.date (t : Instant) : Date := Date.ofDays (t.seconds.fdiv 86400)

def Instant.secondOfDay (t : Instant) : Nat := (t.seconds.fmod 86400).toNat

def Instant.hour (t : Instant) : Nat := t.secondOfDay / 3600

def Instant.minute (t : Instant) : Nat := t.secondOfDay / 60 % 60

/-- A leap second shows as second 60. -/
def Instant.second (t : Instant) : Nat := t.secondOfDay % 60 + t.nanos / 1000000000

def Instant.subsecond (t : Instant) : Nat := t.nanos % 1000000000

def padLeft (fill : Char) (width : Nat) (s : List Char) : List Char :=
  List.replicate (width - s.length) fill ++ s

def padded (width n : Nat) : String := String.ofList (padLeft '0' width (Nat.toDigits 10 n))

/-- Years of more than four digits, and those before year 0, carry a sign. -/
def yearText (year : Int) : String :=
  if 0 ≤ year && year ≤ 9999 then padded 4 year.toNat
  else (if year < 0 then "-" else "+") ++ padded 4 year.natAbs

def Date.text (d : Date) : String :=
  yearText d.year ++ "-" ++ padded 2 d.month ++ "-" ++ padded 2 d.day

def Instant.clockText (t : Instant) : String :=
  padded 2 t.hour ++ ":" ++ padded 2 t.minute ++ ":" ++ padded 2 t.second

def fractionText (nanos : Nat) : String :=
  if nanos == 0 then ""
  else if nanos % 1000000 == 0 then "." ++ padded 3 (nanos / 1000000)
  else if nanos % 1000 == 0 then "." ++ padded 6 (nanos / 1000)
  else "." ++ padded 9 nanos

def Instant.text (t : Instant) : String := t.date.text ++ "T" ++ t.clockText ++ "Z"

def Instant.nanosText (t : Instant) : String :=
  t.date.text ++ "T" ++ t.clockText ++ "." ++ padded 9 t.subsecond ++ "Z"

/-- The calendar holds the years from -262143 to 262142. -/
def Instant.inRange (t : Instant) : Bool :=
  (Date.mk (-262143) 1 1).toDays * 86400 ≤ t.seconds &&
    t.seconds < (Date.mk 262143 1 1).toDays * 86400

/-- A shift out of a leap second first counts it as the second it follows or precedes. -/
def Instant.shift? (t : Instant) (ms : Int) : Option Instant :=
  let whole := ms.tdiv 1000
  let part := ms.tmod 1000 * 1000000
  let nanos : Int := t.nanos
  let stays := 1000000000 ≤ nanos && whole == 0 && !(0 < part && 2000000000 ≤ nanos + part)
  let moved : Instant :=
    if stays then ⟨t.seconds, (nanos + part).toNat⟩
    else
      let (seconds, nanos) :=
        if nanos < 1000000000 then (t.seconds, nanos)
        else (if whole < 0 then t.seconds + 1 else t.seconds, nanos - 1000000000)
      let total := nanos + part
      ⟨seconds + whole + total.fdiv 1000000000, (total.fmod 1000000000).toNat⟩
  if moved.inRange then some moved else none

/-- Durations are milliseconds whose magnitude is a signed number of 64 bits. -/
def isDuration (ms : Int) : Bool := ms.natAbs < Number.half64

def readDigits (count : Nat) (s : List Char) : Option (Nat × List Char) :=
  let ds := s.take count
  if ds.length == count then (Number.readNat ds).map fun n => (n, s.drop count) else none

def readOffset : List Char → Option Int
  | ['Z'] => some 0
  | ['z'] => some 0
  | sign :: rest => do
    let neg ← if sign == '-' then some true else if sign == '+' then some false else none
    let (hours, rest) ← readDigits 2 rest
    match rest with
    | ':' :: rest =>
      let (minutes, rest) ← readDigits 2 rest
      if rest.isEmpty && hours < 24 && minutes < 60 then
        let ahead : Int := hours * 3600 + minutes * 60
        some (if neg then -ahead else ahead)
      else none
    | _ => none
  | [] => none

/-- The nanoseconds of an optional fraction of which nine digits count. -/
def readFraction : List Char → Option (Nat × List Char)
  | '.' :: rest =>
    let ds := rest.takeWhile Char.isDigit
    if ds.isEmpty then none
    else some (Number.natOf ((ds ++ List.replicate 9 '0').take 9), rest.dropWhile Char.isDigit)
  | s => some (0, s)

def expect (c : Char) : List Char → Option (List Char)
  | d :: rest => if c == d then some rest else none
  | [] => none

def readDate (s : List Char) : Option (Date × List Char) := do
  let (year, s) ← readDigits 4 s
  let s ← expect '-' s
  let (month, s) ← readDigits 2 s
  let s ← expect '-' s
  let (day, s) ← readDigits 2 s
  let date : Date := ⟨year, month, day⟩
  if date.isValid then some (date, s) else none

def Instant.read (s : List Char) : Option Instant := do
  let (date, s) ← readDate s
  let s ← match s with
    | c :: rest => if c == 'T' || c == 't' || c == ' ' then some rest else none
    | [] => none
  let (hour, s) ← readDigits 2 s
  let s ← expect ':' s
  let (minute, s) ← readDigits 2 s
  let s ← expect ':' s
  let (second, s) ← readDigits 2 s
  let (nanos, s) ← readFraction s
  let ahead ← readOffset s
  if hour < 24 && minute < 60 && second ≤ 60 then
    let leap := second == 60
    let clock : Int := hour * 3600 + minute * 60 + (if leap then 59 else second)
    some ⟨date.toDays * 86400 + clock - ahead, if leap then nanos + 1000000000 else nanos⟩
  else none

end GoalScript.Calendar
