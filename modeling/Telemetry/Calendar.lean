-- SUMMARY: Dates of the Gregorian calendar from seconds since 1970.

/-!
# The calendar

The Gregorian calendar is extended to all years. Years are counted from March, so that the day that
leap years add is the last one, and in cycles of 400 years, which all have the same number of days.
-/

namespace Telemetry

/-- A day of the Gregorian calendar. -/
structure Date where
  year : Int
  month : Nat
  day : Nat
  deriving DecidableEq, Repr

/-- The day and the time of a second. -/
structure Timestamp where
  date : Date
  hour : Nat
  minute : Nat
  second : Nat
  deriving DecidableEq, Repr

namespace Date

/-- The days of 400 years. -/
def cycleDays : Nat := 146097

/-- The days from the first of March of the year 0 to the first of January of 1970. -/
def epochDays : Int := 719468

/-- The date so many days after the first of January of 1970. -/
def ofDays (days : Int) : Date :=
  let shifted := days + epochDays
  let cycle := shifted.fdiv cycleDays
  let dayOfCycle := (shifted.fmod cycleDays).toNat
  let yearOfCycle :=
    (dayOfCycle - dayOfCycle / 1460 + dayOfCycle / 36524 - dayOfCycle / 146096) / 365
  let dayOfYear := dayOfCycle - (365 * yearOfCycle + yearOfCycle / 4 - yearOfCycle / 100)
  let monthFromMarch := (5 * dayOfYear + 2) / 153
  let month := if monthFromMarch < 10 then monthFromMarch + 3 else monthFromMarch - 9
  { year := yearOfCycle + 400 * cycle + (if month ≤ 2 then 1 else 0)
    month
    day := dayOfYear - (153 * monthFromMarch + 2) / 5 + 1 }

/-- The years that a timestamp may have. -/
def inRange (d : Date) : Bool :=
  -262143 ≤ d.year && d.year ≤ 262142

end Date

namespace Timestamp

/-- The day and the time so many seconds after the beginning of 1970. -/
def ofSeconds (seconds : Int) : Timestamp :=
  let rest := (seconds.fmod 86400).toNat
  ⟨.ofDays (seconds.fdiv 86400), rest / 3600, rest / 60 % 60, rest % 60⟩

/-- A number with at least so many digits. -/
def padded (width n : Nat) : String :=
  let digits := toString n
  String.ofList (List.replicate (width - digits.length) '0') ++ digits

/-- A year has four digits, and a sign if it is before the year 0 or after the year 9999. -/
def writeYear (year : Int) : String :=
  (if year < 0 then "-" else if 9999 < year then "+" else "") ++ padded 4 year.natAbs

/-- The text of a time in the time zone of Greenwich. -/
def write (t : Timestamp) : String :=
  writeYear t.date.year ++ "-" ++ padded 2 t.date.month ++ "-" ++ padded 2 t.date.day ++ "T"
    ++ padded 2 t.hour ++ ":" ++ padded 2 t.minute ++ ":" ++ padded 2 t.second ++ "+00:00"

end Timestamp

end Telemetry
