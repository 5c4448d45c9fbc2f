import SealedChannel.Time.Calendar

/-!
# Points in time

## What is here

* `Timestamp` — a number of seconds since the start of 1970, in a range of about half a million
  years.
* `Timestamp.ofSeconds?` — refuses a number outside that range.
* `Timestamp.text` — date and time of day, followed by the given name of the zone.
-/

set_option autoImplicit false
namespace SealedChannel

/-- A point in time in seconds since the start of 1970, UTC. -/
structure Timestamp where
  seconds : Int
  deriving DecidableEq, Repr

namespace Timestamp

/-- The first second of the year -262143. -/
def least : Int := -8334601228800

/-- The last second of the year 262142. -/
def greatest : Int := 8210266876799

/-- The point in time a number of seconds after the start of 1970, if it lies in the range. -/
def ofSeconds? (n : Int) : Option Timestamp :=
  if least ≤ n ∧ n ≤ greatest then some ⟨n⟩ else none

/-- The date and the time of day, followed by the name of the zone. -/
def text (t : Timestamp) (zone : String) : String :=
  let ofDay := (t.seconds % 86400).toNat
  (Date.ofDays (t.seconds / 86400)).text ++ "T" ++ Numeral.padded 2 (ofDay / 3600) ++ ":"
    ++ Numeral.padded 2 (ofDay / 60 % 60) ++ ":" ++ Numeral.padded 2 (ofDay % 60) ++ zone

end Timestamp

end SealedChannel
