import SealedChannel.Text.Numeral

/-!
# The Gregorian calendar

Dates of the proleptic Gregorian calendar, with a year zero and negative years before it.

## What is here

* `Date` — a day, with `Date.isLeap` and `Date.daysInMonth`.
* `Date.ofDays` — the date that lies a number of days after 1 January 1970.
* `Date.yearText`, `Date.text` — years from 0 to 9999 have four digits; others have a sign and at
  least four digits.
-/

set_option autoImplicit false
namespace SealedChannel

/-- A day of the calendar. -/
structure Date where
  year : Int
  month : Nat
  day : Nat
  deriving DecidableEq, Repr

namespace Date

/-- Whether a year has 366 days. -/
def isLeap (year : Int) : Bool :=
  year % 4 == 0 && (year % 100 != 0 || year % 400 == 0)

/-- The number of days of a month. -/
def daysInMonth (year : Int) (month : Nat) : Nat :=
  match month with
  | 2 => if isLeap year then 29 else 28
  | 4 | 6 | 9 | 11 => 30
  | _ => 31

/-- The date that lies `n` days after 1 January 1970.

Days are counted from 1 March of the year zero, so that a leap day is the last day of its year and
the months follow each other in a cycle of 153 days.  An era is 400 years, `146097` days. -/
def ofDays (n : Int) : Date :=
  let shifted := n + 719468
  let era := shifted / 146097
  let dayOfEra := (shifted % 146097).toNat
  let yearOfEra :=
    (dayOfEra - dayOfEra / 1460 + dayOfEra / 36524 - dayOfEra / 146096) / 365
  let dayOfYear := dayOfEra - (365 * yearOfEra + yearOfEra / 4 - yearOfEra / 100)
  let cycle := (5 * dayOfYear + 2) / 153
  let month := if cycle < 10 then cycle + 3 else cycle - 9
  let year := (yearOfEra : Int) + era * 400
  ⟨if month ≤ 2 then year + 1 else year, month, dayOfYear - (153 * cycle + 2) / 5 + 1⟩

/-- The text of a year. -/
def yearText (year : Int) : String :=
  if year < 0 then "-" ++ Numeral.padded 4 year.natAbs
  else if year ≤ 9999 then Numeral.padded 4 year.natAbs
  else "+" ++ Numeral.padded 4 year.natAbs

/-- The text of a date, as year, month and day. -/
def text (d : Date) : String :=
  yearText d.year ++ "-" ++ Numeral.padded 2 d.month ++ "-" ++ Numeral.padded 2 d.day

end Date

end SealedChannel
