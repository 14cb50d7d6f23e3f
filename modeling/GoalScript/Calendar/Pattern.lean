import GoalScript.Calendar.Instant

namespace GoalScript.Calendar

inductive Pad where
  | none
  | zero
  | space
deriving Repr, DecidableEq

inductive Numeral where
  | year | century | yearOfCentury
  | isoYear | isoYearOfCentury
  | quarter | month | day
  | weekFromSunday | weekFromMonday | isoWeek
  | daysFromSunday | weekdayFromMonday
  | ordinal
  | hour | hour12 | minute | second | nanosecond
  | timestamp
deriving Repr, DecidableEq

inductive Item where
  | literal (text : String)
  | number (numeral : Numeral) (pad : Pad)
  | shortMonth | longMonth | shortWeekday | longWeekday
  | lowerHalf | upperHalf
  | fraction
  | fractionDigits (dot : Bool) (digits : Nat)
  | zoneName
  | zoneOffset (text : String)
  | standard
deriving Repr, DecidableEq

def Item.two (numeral : Numeral) : Item := .number numeral .zero

def monthDayYear : List Item :=
  [.two .month, .literal "/", .two .day, .literal "/", .two .yearOfCentury]

def hourMinuteSecond : List Item :=
  [.two .hour, .literal ":", .two .minute, .literal ":", .two .second]

def itemsOf? : Char → Option (List Item)
  | 'A' => some [.longWeekday]
  | 'B' => some [.longMonth]
  | 'C' => some [.two .century]
  | 'D' => some monthDayYear
  | 'F' => some [.two .year, .literal "-", .two .month, .literal "-", .two .day]
  | 'G' => some [.two .isoYear]
  | 'H' => some [.two .hour]
  | 'I' => some [.two .hour12]
  | 'M' => some [.two .minute]
  | 'P' => some [.lowerHalf]
  | 'R' => some [.two .hour, .literal ":", .two .minute]
  | 'S' => some [.two .second]
  | 'T' => some hourMinuteSecond
  | 'U' => some [.two .weekFromSunday]
  | 'V' => some [.two .isoWeek]
  | 'W' => some [.two .weekFromMonday]
  | 'X' => some hourMinuteSecond
  | 'Y' => some [.two .year]
  | 'Z' => some [.zoneName]
  | 'a' => some [.shortWeekday]
  | 'b' => some [.shortMonth]
  | 'h' => some [.shortMonth]
  | 'c' => some ([.shortWeekday, .literal " ", .shortMonth, .literal " ", .number .day .space,
      .literal " "] ++ hourMinuteSecond ++ [.literal " ", .two .year])
  | 'd' => some [.two .day]
  | 'e' => some [.number .day .space]
  | 'f' => some [.two .nanosecond]
  | 'g' => some [.two .isoYearOfCentury]
  | 'j' => some [.two .ordinal]
  | 'k' => some [.number .hour .space]
  | 'l' => some [.number .hour12 .space]
  | 'm' => some [.two .month]
  | 'n' => some [.literal "\n"]
  | 'p' => some [.upperHalf]
  | 'q' => some [.number .quarter .none]
  | 'r' => some [.two .hour12, .literal ":", .two .minute, .literal ":", .two .second,
      .literal " ", .upperHalf]
  | 's' => some [.number .timestamp .none]
  | 't' => some [.literal "\t"]
  | 'u' => some [.number .weekdayFromMonday .none]
  | 'v' => some [.number .day .space, .literal "-", .shortMonth, .literal "-", .two .year]
  | 'w' => some [.number .daysFromSunday .none]
  | 'x' => some monthDayYear
  | 'y' => some [.two .yearOfCentury]
  | 'z' => some [.zoneOffset "+0000"]
  | '+' => some [.standard]
  | '%' => some [.literal "%"]
  | _ => none

/-- A padding mark goes with a single number only. -/
def repad (pad : Pad) : List Item → Option (List Item)
  | [.number numeral _] => some [.number numeral pad]
  | _ => none

def fractionDigits? (dot : Bool) : Char → Option Item
  | '3' => some (.fractionDigits dot 3)
  | '6' => some (.fractionDigits dot 6)
  | '9' => some (.fractionDigits dot 9)
  | _ => none

/-- The items of a pattern; none when a percent sign starts nothing known. -/
def itemsOfPattern : List Char → Option (List Item)
  | [] => some []
  | '%' :: ':' :: ':' :: ':' :: 'z' :: rest => (itemsOfPattern rest).map (.zoneOffset "+00" :: ·)
  | '%' :: ':' :: ':' :: 'z' :: rest => (itemsOfPattern rest).map (.zoneOffset "+00:00:00" :: ·)
  | '%' :: ':' :: 'z' :: rest => (itemsOfPattern rest).map (.zoneOffset "+00:00" :: ·)
  | '%' :: '.' :: 'f' :: rest => (itemsOfPattern rest).map (.fraction :: ·)
  | '%' :: '.' :: c :: 'f' :: rest => do
    let item ← fractionDigits? true c
    (itemsOfPattern rest).map (item :: ·)
  | '%' :: '-' :: c :: rest => do
    let items ← (itemsOf? c).bind (repad .none)
    (itemsOfPattern rest).map (items ++ ·)
  | '%' :: '0' :: c :: rest => do
    let items ← (itemsOf? c).bind (repad .zero)
    (itemsOfPattern rest).map (items ++ ·)
  | '%' :: '_' :: c :: rest => do
    let items ← (itemsOf? c).bind (repad .space)
    (itemsOfPattern rest).map (items ++ ·)
  | '%' :: c :: 'f' :: rest =>
    match fractionDigits? false c with
    | some item => (itemsOfPattern rest).map (item :: ·)
    | none => do
      let items ← itemsOf? c
      (itemsOfPattern ('f' :: rest)).map (items ++ ·)
  | '%' :: c :: rest => do
    let items ← itemsOf? c
    (itemsOfPattern rest).map (items ++ ·)
  | '%' :: [] => none
  | c :: rest => (itemsOfPattern rest).map (.literal c.toString :: ·)
termination_by s => s.length

/-- Values below 256 as two characters; the tens count on past `9` in code order. -/
def twoText (pad : Pad) (v : Nat) : String :=
  let tens := v / 10
  let ones := Char.ofNat (48 + v % 10)
  match tens, pad with
  | 0, .none => ones.toString
  | 0, .space => String.ofList [' ', ones]
  | _, _ => String.ofList [Char.ofNat (48 + tens), ones]

def wideText (pad : Pad) (width : Nat) (v : Int) (plus : Bool) : String :=
  let digits := Nat.toDigits 10 v.natAbs
  let sign := if v < 0 then ['-'] else if plus then ['+'] else []
  let width := if plus then width + 1 else width
  match pad with
  | .none => String.ofList (sign ++ digits)
  | .zero => String.ofList (sign ++ padLeft '0' (width - sign.length) digits)
  | .space => String.ofList (padLeft ' ' width (sign ++ digits))

def wideYear (pad : Pad) (year : Int) : String :=
  wideText pad 4 year (year < 0 || 9999 < year)

/-- Centuries are kept modulo 256. -/
def centuryText (pad : Pad) (year : Int) : String :=
  twoText pad ((year.fdiv 100).fmod 256).toNat

def clockHour (t : Instant) : Nat := if t.hour % 12 == 0 then 12 else t.hour % 12

def Numeral.text (t : Instant) (pad : Pad) : Numeral → String
  | .year => wideYear pad t.date.year
  | .century => centuryText pad t.date.year
  | .yearOfCentury => twoText pad (t.date.year.fmod 100).toNat
  | .isoYear => wideYear pad t.date.isoWeek.1
  | .isoYearOfCentury => twoText pad (t.date.isoWeek.1.fmod 100).toNat
  | .quarter => toString t.date.quarter
  | .month => twoText pad t.date.month
  | .day => twoText pad t.date.day
  | .weekFromSunday => twoText pad (t.date.weekFrom 6)
  | .weekFromMonday => twoText pad (t.date.weekFrom 0)
  | .isoWeek => twoText pad t.date.isoWeek.2
  | .daysFromSunday => toString ((t.date.weekday + 1) % 7)
  | .weekdayFromMonday => toString (t.date.weekday + 1)
  | .ordinal => wideText pad 3 t.date.ordinal false
  | .hour => twoText pad t.hour
  | .hour12 => twoText pad (clockHour t)
  | .minute => twoText pad t.minute
  | .second => twoText pad t.second
  | .nanosecond => wideText pad 9 t.subsecond false
  | .timestamp => wideText pad 9 t.seconds false

def Item.text (t : Instant) : Item → String
  | .literal text => text
  | .number numeral pad => numeral.text t pad
  | .shortMonth => String.ofList (t.date.monthName.toList.take 3)
  | .longMonth => t.date.monthName
  | .shortWeekday => String.ofList (t.date.weekdayName.toList.take 3)
  | .longWeekday => t.date.weekdayName
  | .lowerHalf => if t.hour < 12 then "am" else "pm"
  | .upperHalf => if t.hour < 12 then "AM" else "PM"
  | .fraction => fractionText t.subsecond
  | .fractionDigits dot digits =>
    (if dot then "." else "") ++ padded digits (t.subsecond / Number.pow10 (9 - digits))
  | .zoneName => "UTC"
  | .zoneOffset text => text
  | .standard => t.date.text ++ "T" ++ t.clockText ++ fractionText t.subsecond ++ "+00:00"

def Instant.format? (t : Instant) (pattern : String) : Option String :=
  (itemsOfPattern pattern.toList).map fun items => String.join (items.map (Item.text t))

end GoalScript.Calendar
