import TilePuzzle.Text.Decimal

/-!
# Times in writing

A time is given in nanoseconds since the start of 1970 and written in UTC, as in
`2026-03-01T09:05:00.250+00:00`. The fraction of the second has as many groups of three digits as it needs.
-/

namespace TilePuzzle.Text

/-- A number with zeros in front, so that it has at least `width` digits. -/
def padded (width n : Nat) : String :=
  String.ofList (List.replicate (width - (natText n).length) '0') ++ natText n

/-- A day of the calendar. -/
structure CalendarDay where
  year : Nat
  month : Nat
  day : Nat
deriving DecidableEq, Repr

/-- The day that is `days` days after the first of 1970. Years are counted from March, so that a leap day
is the last of its year; every 400 years have 146097 days. -/
def CalendarDay.ofDays (days : Nat) : CalendarDay :=
  -- 719468 days lie between the first of March of year 0 and the first of 1970.
  let sinceMarch := days + 719468
  let era := sinceMarch / 146097
  let dayOfEra := sinceMarch % 146097
  let yearOfEra := (dayOfEra - dayOfEra / 1460 + dayOfEra / 36524 - dayOfEra / 146096) / 365
  let dayOfYear := dayOfEra - (365 * yearOfEra + yearOfEra / 4 - yearOfEra / 100)
  let monthFromMarch := (5 * dayOfYear + 2) / 153
  let month := if monthFromMarch < 10 then monthFromMarch + 3 else monthFromMarch - 9
  { year := era * 400 + yearOfEra + if month ≤ 2 then 1 else 0
    month
    day := dayOfYear - (153 * monthFromMarch + 2) / 5 + 1 }

/-- The fraction of a second, in nanoseconds. -/
def fractionText (nanoseconds : Nat) : String :=
  if nanoseconds = 0 then ""
  else if nanoseconds % 1000000 = 0 then "." ++ padded 3 (nanoseconds / 1000000)
  else if nanoseconds % 1000 = 0 then "." ++ padded 6 (nanoseconds / 1000)
  else "." ++ padded 9 nanoseconds

/-- The time in writing. -/
def timestamp (nanoseconds : Nat) : String :=
  let seconds := nanoseconds / 1000000000
  let day := CalendarDay.ofDays (seconds / 86400)
  let time := seconds % 86400
  padded 4 day.year ++ "-" ++ padded 2 day.month ++ "-" ++ padded 2 day.day ++ "T"
    ++ padded 2 (time / 3600) ++ ":" ++ padded 2 (time / 60 % 60) ++ ":" ++ padded 2 (time % 60)
    ++ fractionText (nanoseconds % 1000000000) ++ "+00:00"

example : timestamp 1772355900250000000 = "2026-03-01T09:05:00.250+00:00" := by decide +kernel

example : CalendarDay.ofDays 11016 = ⟨2000, 2, 29⟩ := by decide

end TilePuzzle.Text
