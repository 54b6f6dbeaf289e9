import Reckoner.Text.Numeral
import Reckoner.Text.Quoted

/-!
Points in time of the Gregorian calendar. Days are also counted from the first of January 1970,
and named by the week that they are in.
-/

namespace Reckoner
open Text

namespace Timestamp

/-- A date with a time of day, and how many microseconds the clock is ahead of universal time,
where that is known. Nothing is said of the ranges. -/
structure Fields where
  year : Nat
  month : Nat
  day : Nat
  hour : Nat
  minute : Nat
  second : Nat
  micro : Nat
  offset : Option Int
deriving DecidableEq

def isLeapYear (y : Nat) : Bool :=
  y % 4 == 0 && (y % 100 != 0 || y % 400 == 0)

def daysInMonth (y m : Nat) : Nat :=
  if m = 2 then (if isLeapYear y then 29 else 28)
  else if m = 4 ∨ m = 6 ∨ m = 9 ∨ m = 11 then 30 else 31

abbrev microsPerDay : Nat := 86400000000

namespace Fields

def DateInRange (f : Fields) : Prop :=
  (1 ≤ f.year ∧ f.year ≤ 9999) ∧ (1 ≤ f.month ∧ f.month ≤ 12) ∧
    1 ≤ f.day ∧ f.day ≤ daysInMonth f.year f.month

instance (f : Fields) : Decidable f.DateInRange :=
  inferInstanceAs (Decidable (_ ∧ _))

/-- The offset is less than a day. -/
def InRange (f : Fields) : Prop :=
  f.DateInRange ∧ f.hour < 24 ∧ f.minute < 60 ∧ f.second < 60 ∧ f.micro < 1000000 ∧
    (f.offset.getD 0).natAbs < microsPerDay

instance (f : Fields) : Decidable f.InRange :=
  inferInstanceAs (Decidable (_ ∧ _))

end Fields

end Timestamp

/-- A date that exists, with a time of day. -/
structure Timestamp extends Timestamp.Fields where
  inRange : toFields.InRange
deriving DecidableEq

namespace Timestamp

inductive Fault where
  | format (text : String)
  | offset (micros : Int)
  | year (year : Int)
  | month
  | day
  | hour
  | minute
  | second
  | notANumber
  | beyondClock
  | beyondCalendar
deriving DecidableEq

def durationText (micros : Int) : String :=
  let part (name : String) (n : Int) : List String :=
    if n = 0 then [] else [name ++ "=" ++ intText n]
  ", ".intercalate (part "days" (micros / microsPerDay) ++
    part "seconds" (micros % microsPerDay / 1000000) ++ part "microseconds" (micros % 1000000))

def Fault.message : Fault → String
  | .format s => "Invalid isoformat string: " ++ quote s
  | .offset micros =>
    "offset must be a timedelta strictly between -timedelta(hours=24) and timedelta(hours=24), " ++
      "not datetime.timedelta(" ++ durationText micros ++ ")."
  | .year y => "year " ++ intText y ++ " is out of range"
  | .month => "month must be in 1..12"
  | .day => "day is out of range for month"
  | .hour => "hour must be in 0..23"
  | .minute => "minute must be in 0..59"
  | .second => "second must be in 0..59"
  | .notANumber => "Invalid value NaN (not a number)"
  | .beyondClock => "timestamp out of range for platform time_t"
  | .beyondCalendar => "[Errno 75] Value too large for defined data type"

def Fields.fault (f : Fields) : Fault :=
  if microsPerDay ≤ (f.offset.getD 0).natAbs then .offset (f.offset.getD 0)
  else if f.year < 1 ∨ 9999 < f.year then .year f.year
  else if f.month < 1 ∨ 12 < f.month then .month
  else if f.day < 1 ∨ daysInMonth f.year f.month < f.day then .day
  else if 24 ≤ f.hour then .hour
  else if 60 ≤ f.minute then .minute
  else .second

def ofFields (f : Fields) : Except Fault Timestamp :=
  if h : f.InRange then .ok ⟨f, h⟩ else .error f.fault

/-! Days, counted from the first of January 1970. -/

/-- Year, month and day of a day. Years are counted from March, so that the leap day ends a year,
and by eras of 400 years. -/
def civil (days : Int) : Int × Nat × Nat :=
  let z := days + 719468
  let dayOfEra := (z % 146097).toNat
  let yearOfEra := (dayOfEra - dayOfEra / 1460 + dayOfEra / 36524 - dayOfEra / 146096) / 365
  let dayOfYear := dayOfEra - (365 * yearOfEra + yearOfEra / 4 - yearOfEra / 100)
  let m := (5 * dayOfYear + 2) / 153
  let day := dayOfYear - (153 * m + 2) / 5 + 1
  let month := if m < 10 then m + 3 else m - 9
  (yearOfEra + z / 146097 * 400 + (if month ≤ 2 then 1 else 0), month, day)

def newYear (y : Int) : Int :=
  365 * (y - 1970) + ((y - 1) / 4 - (y - 1) / 100 + (y - 1) / 400) - 477

def weekday (days : Int) : Int :=
  (days + 3) % 7

/-- The Monday of the first week, which is the one that the first Thursday of the year is in. -/
def firstMonday (y : Int) : Int :=
  let w := weekday (newYear y)
  newYear y - w + (if 3 < w then 7 else 0)

/-- A year has as many weeks as there are Mondays up to the first one of the next year. -/
def weeksInYear (y : Int) : Int :=
  (firstMonday (y + 1) - firstMonday y) / 7

/-- Year, month and day of a day of a week, where Monday is one. The last days may fall into the
next year. The weeks of a year zero are in no month. -/
def ofWeek? (year week day : Nat) : Option (Nat × Nat × Nat) :=
  if (1 ≤ week ∧ (week : Int) ≤ weeksInYear year) ∧ 1 ≤ day ∧ day ≤ 7 then
    if year = 0 then some (1, 0, day)
    else
      let (y, month, day) := civil (firstMonday year + (week - 1) * 7 + (day - 1))
      some (y.toNat, month, day)
  else none

end Timestamp
end Reckoner
