/-!
# The calendar

A moment is a number of microseconds. The calendar has the years 1 to 9999, and a span of time has
at most 999999999 days, so not every number of hours before a moment leads to one.
-/

namespace TimelineExport

/-- A moment, in microseconds since the beginning of 1970. -/
abbrev Instant := Int

/-- The microseconds of an hour. -/
def microsecondsPerHour : Int := 3600000000

/-- The most days that a span of time has. -/
def maxSpanDays : Int := 999999999

/-- The first number that a machine word does not hold. -/
def machineLimit : Int := 2147483648

/-- Why there is no moment so many hours before another one. -/
inductive CalendarFault where
  /-- The number of days does not fit a machine word. -/
  | hugeSpan
  /-- No span has so many days. -/
  | longSpan (days : Int)
  /-- The calendar does not reach so far. -/
  | noDate
  deriving DecidableEq, Repr

/-- What a reader is told about a fault. -/
def CalendarFault.message : CalendarFault → String
  | hugeSpan => "Python int too large to convert to C int"
  | longSpan days => "days=" ++ toString days ++ "; must have magnitude <= " ++ toString maxSpanDays
  | noDate => "date value out of range"

namespace Instant

/-- The first moment of the calendar. -/
def earliest : Int := -62135596800000000

/-- The last moment of the calendar. -/
def latest : Int := 253402300799999999

/-- What a clock shows some time later. No clock leaves the calendar. -/
def later (now : Instant) (microseconds : Nat) : Instant := min (now + microseconds) latest

/-- The moment so many hours ago. -/
def hoursAgo (now : Instant) (hours : Int) : Except CalendarFault Instant :=
  let days := hours / 24
  let moment : Int := now - hours * microsecondsPerHour
  if machineLimit ≤ days ∨ days < -machineLimit then .error .hugeSpan
  else if maxSpanDays < days ∨ days < -maxSpanDays then .error (.longSpan days)
  else if moment < earliest ∨ latest < moment then .error .noDate
  else .ok moment

end Instant

end TimelineExport
