import SealedChannel.Time.Calendar
import SealedChannel.Toml.Item
import SealedChannel.Toml.Quoted

/-!
# TOML dates and times

A date, a time of day, or both, and after both perhaps an offset.  Only their form and their ranges
are checked.

## What is here

* `Toml.day?`, `Toml.time?`, `Toml.offset?` — the three parts.
* `Toml.date?` — a date or a time.
-/

set_option autoImplicit false
namespace SealedChannel
namespace Toml

/-- A number of exactly `width` digits between two bounds. -/
def fixed? (width low high : Nat) (cs : List Char) : Option (Nat × List Char) :=
  let ds := cs.take width
  let n := ds.foldl (fun n c => 10 * n + (c.toNat - 48)) 0
  if ds.length = width ∧ ds.all Char.isDigit ∧ low ≤ n ∧ n ≤ high then some (n, cs.drop width)
  else none

/-- What follows a given character. -/
def after? (c : Char) : List Char → Option (List Char)
  | [] => none
  | x :: rest => if x = c then some rest else none

/-- What follows a date. -/
def day? (cs : List Char) : Option (List Char) := do
  let (year, rest) ← fixed? 4 0 9999 cs
  let (month, rest) ← fixed? 2 1 12 (← after? '-' rest)
  let (_, rest) ← fixed? 2 1 (SealedChannel.Date.daysInMonth year month) (← after? '-' rest)
  some rest

/-- What follows a fraction of a second, if there is one. -/
def afterFraction (cs : List Char) : List Char :=
  match cs with
  | '.' :: c :: rest => if c.isDigit then rest.dropWhile Char.isDigit else cs
  | _ => cs

/-- What follows a time of day; a minute may have a leap second. -/
def time? (cs : List Char) : Option (List Char) := do
  let (_, rest) ← fixed? 2 0 23 cs
  let (_, rest) ← fixed? 2 0 59 (← after? ':' rest)
  let (_, rest) ← fixed? 2 0 60 (← after? ':' rest)
  some (afterFraction rest)

/-- What follows an offset. -/
def offset? : List Char → Option (List Char)
  | [] => none
  | c :: rest =>
    if c == 'Z' || c == 'z' then some rest
    else if c == '+' || c == '-' then do
      let (_, rest) ← fixed? 2 0 23 rest
      let (_, rest) ← fixed? 2 0 59 (← after? ':' rest)
      some rest
    else none

/-- What follows the time after a date, if there is one. -/
def afterTime (cs : List Char) : List Char :=
  match cs with
  | [] => []
  | c :: rest =>
    if c == 'T' || c == 't' || c == ' ' then
      match time? rest with
      | some rest => (offset? rest).getD rest
      | none => cs
    else cs

/-- A date or a time. -/
def date? (cs : List Char) : Option (Scalar × List Char) :=
  match day? cs with
  | some rest => some (.date, afterTime rest)
  | none => (time? cs).map fun rest => (.date, rest)

end Toml

end SealedChannel
