import InstallerBrowser.Decimal.Places

/-!
# InstallerBrowser.Calendar

Dates and times of day from seconds.

Times are counted in seconds from the start of 1970, in Universal Time. The date follows from the
number of days by the lengths of the cycles of the Gregorian calendar: 400, 100, 4 and 1 years,
each counted from the first of March.
-/

namespace InstallerBrowser.Calendar

/-- A day of the calendar. -/
structure Date where
  year : Int
  month : Nat
  day : Nat
deriving Repr, DecidableEq

/-- The date of a day, counted from the first of January 1970. -/
def dateOfDay (day : Int) : Date :=
  -- the era starts on the first of March of the year 0
  let fromEra := day + 719468
  let era := fromEra.fdiv 146097
  let dayOfEra := (fromEra.fmod 146097).toNat
  let yearOfEra := (dayOfEra - dayOfEra / 1460 + dayOfEra / 36524 - dayOfEra / 146096) / 365
  let dayOfYear := dayOfEra - (365 * yearOfEra + yearOfEra / 4 - yearOfEra / 100)
  let march := (5 * dayOfYear + 2) / 153
  let month := if march < 10 then march + 3 else march - 9
  { year := era * 400 + yearOfEra + (if month ≤ 2 then 1 else 0)
    month
    day := dayOfYear - (153 * march + 2) / 5 + 1 }

/-- The time of day of a second: hours, minutes and seconds with colons between them. -/
def timeOfDay (seconds : Int) : String :=
  let s := (seconds.fmod 86400).toNat
  Decimal.padded 2 (s / 3600) ++ ":" ++ Decimal.padded 2 (s / 60 % 60) ++ ":" ++
    Decimal.padded 2 (s % 60)

/-- Date and time of a second, in digits, with a hyphen between them. -/
def stamp (seconds : Int) : String :=
  let date := dateOfDay (seconds.fdiv 86400)
  let s := (seconds.fmod 86400).toNat
  Decimal.padded 4 date.year.toNat ++ Decimal.padded 2 date.month ++ Decimal.padded 2 date.day ++
    "-" ++ Decimal.padded 2 (s / 3600) ++ Decimal.padded 2 (s / 60 % 60) ++
    Decimal.padded 2 (s % 60)

end InstallerBrowser.Calendar
