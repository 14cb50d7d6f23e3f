namespace GoalScript.Calendar

structure Date where
  year : Int
  month : Nat
  day : Nat
deriving Repr, DecidableEq

/-- Years are taken to start in March, so that a leap day ends its year. -/
def Date.toDays (d : Date) : Int :=
  let y := if d.month ≤ 2 then d.year - 1 else d.year
  let era := y.fdiv 400
  let yearOfEra := y - era * 400
  let monthOfYear : Int := if d.month > 2 then d.month - 3 else d.month + 9
  let dayOfYear := (153 * monthOfYear + 2).fdiv 5 + d.day - 1
  let dayOfEra := yearOfEra * 365 + yearOfEra.fdiv 4 - yearOfEra.fdiv 100 + dayOfYear
  era * 146097 + dayOfEra - 719468

def Date.ofDays (days : Int) : Date :=
  let z := days + 719468
  let era := z.fdiv 146097
  let dayOfEra := z - era * 146097
  let yearOfEra :=
    (dayOfEra - dayOfEra.fdiv 1460 + dayOfEra.fdiv 36524 - dayOfEra.fdiv 146096).fdiv 365
  let dayOfYear := dayOfEra - (365 * yearOfEra + yearOfEra.fdiv 4 - yearOfEra.fdiv 100)
  let shifted := (5 * dayOfYear + 2).fdiv 153
  let day := dayOfYear - (153 * shifted + 2).fdiv 5 + 1
  let month := if shifted < 10 then shifted + 3 else shifted - 9
  let year := yearOfEra + era * 400 + if month ≤ 2 then 1 else 0
  ⟨year, month.toNat, day.toNat⟩

def isLeap (year : Int) : Bool :=
  year.fmod 4 == 0 && (year.fmod 100 != 0 || year.fmod 400 == 0)

def daysInMonth (year : Int) (month : Nat) : Nat :=
  if month == 2 then if isLeap year then 29 else 28
  else if month == 4 || month == 6 || month == 9 || month == 11 then 30
  else 31

def Date.isValid (d : Date) : Bool :=
  1 ≤ d.month && d.month ≤ 12 && 1 ≤ d.day && d.day ≤ daysInMonth d.year d.month

def Date.ordinal (d : Date) : Nat := (d.toDays - (Date.mk d.year 1 1).toDays + 1).toNat

/-- Days since Monday. -/
def Date.weekday (d : Date) : Nat := ((d.toDays + 3).fmod 7).toNat

/-- The week's number when weeks start `offset` days after Monday; days before the first such day
are in week 0. -/
def Date.weekFrom (d : Date) (offset : Nat) : Nat :=
  (d.ordinal + 6 - (d.weekday + 7 - offset) % 7) / 7

/-- The year and week that hold the Thursday next to the date. -/
def Date.isoWeek (d : Date) : Int × Nat :=
  let thursday := Date.ofDays (d.toDays - d.weekday + 3)
  (thursday.year, (thursday.ordinal - 1) / 7 + 1)

def Date.quarter (d : Date) : Nat := (d.month - 1) / 3 + 1

def monthNames : List String :=
  ["January", "February", "March", "April", "May", "June", "July", "August", "September",
    "October", "November", "December"]

def weekdayNames : List String :=
  ["Monday", "Tuesday", "Wednesday", "Thursday", "Friday", "Saturday", "Sunday"]

def Date.monthName (d : Date) : String := monthNames.getD (d.month - 1) ""

def Date.weekdayName (d : Date) : String := weekdayNames.getD d.weekday ""

end GoalScript.Calendar
