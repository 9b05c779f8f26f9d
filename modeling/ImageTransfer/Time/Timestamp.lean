import ImageTransfer.Time.Calendar

/-!
# Timestamps

A timestamp is a date and a time of day as they were written, with the offset from universal time
that they were written with.
-/

namespace ImageTransfer

/-- A date, a time of day and an offset. -/
structure Timestamp where
  year : Nat
  month : Nat
  day : Nat
  hour : Nat
  minute : Nat
  second : Nat
  microsecond : Nat
  /-- How far the clock is ahead of universal time, in microseconds. -/
  offset : Int
deriving DecidableEq, Repr, Inhabited

namespace Timestamp

/-- The beginning of 1970 in universal time. -/
def epoch : Timestamp := ⟨1970, 1, 1, 0, 0, 0, 0, 0⟩

/-- A number with zeros in front, `width` digits at least. -/
def padded (width n : Nat) : String :=
  let ds := Nat.toDigits 10 n
  String.ofList (List.replicate (width - ds.length) '0' ++ ds)

/-- Microseconds in a second. -/
def perSecond : Nat := 1000000

/-- The fraction of a second, if there is one. -/
def fractionText (microsecond : Nat) : String :=
  if microsecond = 0 then "" else "." ++ padded 6 microsecond

/-- An offset: hours and minutes, and seconds and their fraction only if they are not zero. -/
def offsetText (offset : Int) : String :=
  let us := offset.natAbs
  let seconds := us / perSecond
  let tail := if us % (60 * perSecond) = 0 then "" else
    ":" ++ padded 2 (seconds % 60) ++ fractionText (us % perSecond)
  (if offset < 0 then "-" else "+") ++ padded 2 (seconds / 3600) ++ ":" ++
    padded 2 (seconds / 60 % 60) ++ tail

/-- A timestamp as text, with the separator between date and time. -/
def text (t : Timestamp) (separator : String) : String :=
  padded 4 t.year ++ "-" ++ padded 2 t.month ++ "-" ++ padded 2 t.day ++ separator ++
    padded 2 t.hour ++ ":" ++ padded 2 t.minute ++ ":" ++ padded 2 t.second ++
    fractionText t.microsecond ++ offsetText t.offset

/-- The instant, in microseconds since 1970. -/
def epochMicroseconds (t : Timestamp) : Int :=
  let days : Int := Calendar.dayNumber t.year t.month t.day - Calendar.epochDay
  ((days * 24 + t.hour) * 60 + t.minute) * 60 * perSecond + t.second * perSecond +
    t.microsecond - t.offset

/-- Whether the fields denote a moment of the calendar. -/
def isValid (t : Timestamp) : Bool :=
  1 ≤ t.year && t.year ≤ Calendar.maxYear && 1 ≤ t.month && t.month ≤ 12 && 1 ≤ t.day &&
    t.day ≤ Calendar.daysInMonth t.year t.month && t.hour < 24 && t.minute < 60 && t.second < 60 &&
    t.microsecond < perSecond

end Timestamp

end ImageTransfer
