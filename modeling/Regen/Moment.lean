import Regen.Text.Cut

/-! Moments of the Gregorian calendar, from the year 1 to 9999, with microseconds
and without a time zone. -/
namespace Regen

/-- Why numbers are no moment. -/
inductive MomentFault where
  /-- A number is too large for 32 bits. -/
  | tooLarge
  /-- A number is too small for 32 bits. -/
  | tooSmall
  /-- A number has more than 64 bits. -/
  | unfit
  | year (given : Int)
  | month
  | day
  | hour
  | minute
  | second
  | microsecond
deriving DecidableEq, Repr

/-- Whether it is the size of a number that no moment can have. -/
def MomentFault.isOverflow : MomentFault → Bool
  | .tooLarge => true
  | .tooSmall => true
  | .unfit => true
  | _ => false

/-- The complaint about numbers that are no moment. -/
def MomentFault.message : MomentFault → String
  | .tooLarge => "signed integer is greater than maximum"
  | .tooSmall => "signed integer is less than minimum"
  | .unfit => "Python int too large to convert to C long"
  | .year given => s!"year {given} is out of range"
  | .month => "month must be in 1..12"
  | .day => "day is out of range for month"
  | .hour => "hour must be in 0..23"
  | .minute => "minute must be in 0..59"
  | .second => "second must be in 0..59"
  | .microsecond => "microsecond must be in 0..999999"

structure Moment where
  year : Nat
  month : Nat
  day : Nat
  hour : Nat
  minute : Nat
  second : Nat
  microsecond : Nat
deriving DecidableEq, Repr

namespace Moment

/-- Whether a year has a leap day. -/
def isLeap (year : Nat) : Bool :=
  year % 4 = 0 && (year % 100 ≠ 0 || year % 400 = 0)

/-- The lengths of the months of a year. -/
def monthLengths (year : Nat) : List Nat :=
  [31, if isLeap year then 29 else 28, 31, 30, 31, 30, 31, 31, 30, 31, 30, 31]

/-- The number of days in a month. -/
def monthLength (year month : Nat) : Nat :=
  (monthLengths year).getD (month - 1) 0

/-- Whether a number lies between two others, or is one of them. -/
def within (low high n : Int) : Bool := low ≤ n && n ≤ high

/-- What is wrong with a number, whichever of the numbers it is. -/
def numberFault? (n : Int) : Option MomentFault :=
  if within (-Nat.pow 2 31) (Nat.pow 2 31 - 1) n then none
  else if !within (-Nat.pow 2 63) (Nat.pow 2 63 - 1) n then some .unfit
  else if 0 < n then some .tooLarge
  else some .tooSmall

/-- The moment with these numbers, or what is wrong with the first at fault. -/
def ofFitting (year month day hour minute second microsecond : Int) : Except MomentFault Moment :=
  if !within 1 9999 year then .error (.year year)
  else if !within 1 12 month then .error .month
  else if !within 1 (monthLength year.toNat month.toNat) day then .error .day
  else if !within 0 23 hour then .error .hour
  else if !within 0 59 minute then .error .minute
  else if !within 0 59 second then .error .second
  else if !within 0 999999 microsecond then .error .microsecond
  else
    .ok ⟨year.toNat, month.toNat, day.toNat, hour.toNat, minute.toNat, second.toNat,
      microsecond.toNat⟩

/-- The moment with these numbers. That they are numbers of 32 bits is looked
into first. -/
def ofNumbers (year month day hour minute second microsecond : Int) : Except MomentFault Moment :=
  match [year, month, day, hour, minute, second, microsecond].findSome? numberFault? with
  | some fault => .error fault
  | none => ofFitting year month day hour minute second microsecond

/-- The number of the day in its year, from one on. -/
def dayOfYear (moment : Moment) : Nat :=
  ((monthLengths moment.year).take (moment.month - 1)).foldl (· + ·) 0 + moment.day

/-- The number of days before a year. -/
def daysBefore (year : Nat) : Nat :=
  let past := year - 1
  past * 365 + past / 4 - past / 100 + past / 400

/-- The day of the week, Sunday being zero. -/
def weekday (moment : Moment) : Nat :=
  (daysBefore moment.year + moment.dayOfYear) % 7

/-- The number of days in a year. -/
def yearLength (year : Nat) : Nat := if isLeap year then 366 else 365

/-- The number of the week when weeks begin on a weekday and the first one is
the first full one. -/
def weekFrom (first : Nat) (moment : Moment) : Nat :=
  (moment.dayOfYear + 6 - (moment.weekday + 7 - first) % 7) / 7

/-- The year and the number of the week that holds a moment, where weeks begin
on Monday and belong to the year of their Thursday. -/
def calendarWeek (moment : Moment) : Nat × Nat :=
  let thursday := moment.dayOfYear + 4
  let back := if moment.weekday = 0 then 7 else moment.weekday
  let length := yearLength moment.year
  if thursday ≤ back then
    (moment.year - 1, (thursday + yearLength (moment.year - 1) - back - 1) / 7 + 1)
  else if length < thursday - back then (moment.year + 1, 1)
  else (moment.year, (thursday - back - 1) / 7 + 1)

/-- The number of seconds since the beginning of 1970. -/
def epochSeconds (moment : Moment) : Int :=
  let days : Int := (daysBefore moment.year + moment.dayOfYear : Nat) - (daysBefore 1970 + 1 : Nat)
  days * 86400 + (moment.hour * 3600 + moment.minute * 60 + moment.second : Nat)

end Moment
end Regen
