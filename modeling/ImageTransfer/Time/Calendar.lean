/-!
# The calendar

Days of the Gregorian calendar, extended to all years, are counted from the first of January of the
year 1, which has the number 1. A week begins on a Monday, and the first week of a year is the one
that holds its first Thursday.
-/

namespace ImageTransfer.Calendar

/-- Whether a year has a 29th of February. -/
def isLeap (year : Nat) : Bool := year % 4 == 0 && (year % 100 != 0 || year % 400 == 0)

/-- The last year that a timestamp may have. -/
def maxYear : Nat := 9999

/-- How many days a month has. -/
def daysInMonth (year month : Nat) : Nat :=
  match month with
  | 2 => if isLeap year then 29 else 28
  | 4 | 6 | 9 | 11 => 30
  | _ => 31

/-- How many days of the calendar come before a year, which is not 0. -/
def daysBeforeYear (year : Nat) : Nat :=
  let y := year - 1
  y * 365 + y / 4 - y / 100 + y / 400

/-- How many days of a year come before a month. -/
def daysBeforeMonth (year month : Nat) : Nat :=
  (List.range (month - 1)).foldl (fun n m => n + daysInMonth year (m + 1)) 0

/-- The number of a day. -/
def dayNumber (year month day : Nat) : Nat :=
  daysBeforeYear year + daysBeforeMonth year month + day

/-- The number of the day that times are counted from. -/
def epochDay : Nat := dayNumber 1970 1 1

/-- The day of the week, from 0 for Monday. -/
def weekday (dayNumber : Nat) : Nat := (dayNumber + 6) % 7

/-- The month and day of the `n`th day of a year, counted from 0, looking at months from `month`. -/
def monthAndDay (year : Nat) : Nat → Nat → Nat → Nat × Nat
  | 0, month, n => (month, n + 1)
  | more + 1, month, n =>
    let days := daysInMonth year month
    if n < days then (month, n + 1) else monthAndDay year more (month + 1) (n - days)

/-- The year, month and day of the `n`th day of a year, counted from 0, or of the years beside it. -/
def dateInYear (year : Nat) (n : Int) : Nat × Nat × Nat :=
  let days := daysBeforeYear (year + 1) - daysBeforeYear year
  let (y, k) : Nat × Nat :=
    if n < 0 then
      (year - 1, (n + (daysBeforeYear year - daysBeforeYear (year - 1) : Nat)).toNat)
    else if n < days then (year, n.toNat)
    else (year + 1, n.toNat - days)
  let (month, day) := monthAndDay y 12 1 k
  (y, month, day)

/-- How many weeks a year has: 53 if it begins on a Thursday, or on a Wednesday and is a leap year. -/
def weeksInYear (year : Nat) : Nat :=
  let first := weekday (dayNumber year 1 1)
  if first = 3 ∨ (first = 2 ∧ isLeap year) then 53 else 52

/-- The date of a day of a numbered week, with both numbers from 1, if the year has such a week. -/
def dateOfWeek? (year week day : Nat) : Option (Nat × Nat × Nat) :=
  if year = 0 ∨ week = 0 ∨ weeksInYear year < week ∨ day = 0 ∨ 7 < day then none
  else
    let first := weekday (dayNumber year 1 1)
    -- the Monday of the first week, as a day of the year from 0
    let monday : Int := if first ≤ 3 then -(first : Int) else 7 - (first : Int)
    some (dateInYear year (monday + (week - 1 : Nat) * 7 + (day - 1 : Nat)))

end ImageTransfer.Calendar
