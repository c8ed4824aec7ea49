import ProcCall.Digits

/-!
# Points in time

A point in time is a number of seconds since the start of 1970. It is written as date
and time of day.

* `Clock.timestamp`: `1970-01-01 00:00:00,000`.
-/

namespace ProcCall.Clock

/-- Year, month and day of the day with the given number. Years are counted from March
on, so that the leap day is the last one. -/
def civil (day : Int) : Int × Int × Int :=
  let z := day + 719468
  let era := z.fdiv 146097
  let dayOfEra := z - era * 146097
  let yearOfEra := (dayOfEra - dayOfEra / 1460 + dayOfEra / 36524 - dayOfEra / 146096) / 365
  let dayOfYear := dayOfEra - (365 * yearOfEra + yearOfEra / 4 - yearOfEra / 100)
  let monthFromMarch := (5 * dayOfYear + 2) / 153
  let month := if monthFromMarch < 10 then monthFromMarch + 3 else monthFromMarch - 9
  let year := yearOfEra + era * 400 + if month ≤ 2 then 1 else 0
  (year, month, dayOfYear - (153 * monthFromMarch + 2) / 5 + 1)

/-- A number with at least `width` characters, sign included. -/
def padded (width : Nat) (n : Int) : String :=
  if n < 0 then "-" ++ String.ofList (Digits.ofNat 10 (width - 1) n.natAbs)
  else String.ofList (Digits.ofNat 10 width n.natAbs)

/-- Date and time of day with milliseconds. -/
def timestamp (seconds milliseconds : Int) : String :=
  let day := seconds.fdiv 86400
  let second := seconds - day * 86400
  let (year, month, dayOfMonth) := civil day
  toString year ++ "-" ++ padded 2 month ++ "-" ++ padded 2 dayOfMonth ++ " " ++
    padded 2 (second / 3600) ++ ":" ++ padded 2 (second / 60 % 60) ++ ":" ++
    padded 2 (second % 60) ++ "," ++ padded 3 milliseconds

end ProcCall.Clock
