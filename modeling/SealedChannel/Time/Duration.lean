import SealedChannel.Text.Numeral

/-!
# Durations

Limits and latencies are whole numbers of nanoseconds.

## What is here

* `Duration` — the type, with `Duration.ofSeconds`, `Duration.ofMillis` and `Duration.ofMicros`.
* `Duration.onClock` — how long a wait of some duration takes on a clock that ticks once in a
  millisecond and lets nobody wait for more than thirty years.
* `Duration.text` — the duration in the largest unit in which it is at least one, with as many
  decimals as it needs.
-/

set_option autoImplicit false
namespace SealedChannel

/-- A length of time. -/
structure Duration where
  nanos : Nat
  deriving DecidableEq, Repr, Inhabited

namespace Duration

-- Sums and products are computed along their second operand, so the large numerals come first.

/-- A number of seconds. -/
def ofSeconds (n : Nat) : Duration :=
  ⟨1000000000 * n⟩

/-- A number of milliseconds. -/
def ofMillis (n : Nat) : Duration :=
  ⟨1000000 * n⟩

/-- A number of microseconds. -/
def ofMicros (n : Nat) : Duration :=
  ⟨1000 * n⟩

instance : Add Duration :=
  ⟨fun a b => ⟨a.nanos + b.nanos⟩⟩

instance : Min Duration :=
  ⟨fun a b => ⟨min a.nanos b.nanos⟩⟩

instance : LT Duration :=
  ⟨fun a b => a.nanos < b.nanos⟩

instance : LE Duration :=
  ⟨fun a b => a.nanos ≤ b.nanos⟩

instance (a b : Duration) : Decidable (a < b) :=
  inferInstanceAs (Decidable (a.nanos < b.nanos))

instance (a b : Duration) : Decidable (a ≤ b) :=
  inferInstanceAs (Decidable (a.nanos ≤ b.nanos))

theorem add_assoc (a b c : Duration) : a + b + c = a + (b + c) :=
  congrArg mk (Nat.add_assoc a.nanos b.nanos c.nanos)

theorem zero_add (a : Duration) : ⟨0⟩ + a = a :=
  congrArg mk (Nat.zero_add a.nanos)

theorem not_lt {a b : Duration} : ¬ a < b ↔ b ≤ a :=
  Nat.not_lt

theorem lt_of_le_of_lt {a b c : Duration} (hab : a ≤ b) (hbc : b < c) : a < c :=
  Nat.lt_of_le_of_lt hab hbc

theorem le_add_right (a b : Duration) : a ≤ a + b :=
  Nat.le_add_right a.nanos b.nanos

/-- Any positive number of seconds leaves some time. -/
theorem ofSeconds_pos {n : Nat} (h : n ≠ 0) : ⟨0⟩ < ofSeconds n :=
  Nat.mul_pos (by decide) (Nat.pos_of_ne_zero h)

/-! ## Waiting -/

/-- The longest wait: thirty years.  A deadline that lies farther ahead is brought forward to it,
that of a limit as well as that of a latency. -/
def longestWait : Duration :=
  .ofSeconds (30 * 365 * 86400)

/-- How long a wait takes.  It is over with the first tick at which the duration has passed, and
with the longest wait at the latest. -/
def onClock (d : Duration) : Duration :=
  min (.ofMillis ((999999 + d.nanos) / 1000000)) longestWait

theorem nanos_onClock (d : Duration) :
    d.onClock.nanos =
      min (1000000 * ((999999 + d.nanos) / 1000000)) (1000000000 * (30 * 365 * 86400)) :=
  rfl

/-- A longer wait takes no less on the clock. -/
theorem onClock_le_onClock {a b : Duration} (h : a ≤ b) : a.onClock ≤ b.onClock := by
  change a.nanos ≤ b.nanos at h
  change a.onClock.nanos ≤ b.onClock.nanos
  rw [nanos_onClock, nanos_onClock]
  omega

/-! ## Text -/

/-- A number of units and a fraction of `places` decimals, without zeros at its end. -/
def decimalText (whole fraction places : Nat) : String :=
  let ds := ((Numeral.padded places fraction).toList.reverse.dropWhile (· = '0')).reverse
  toString whole ++ (if ds.isEmpty then "" else "." ++ String.ofList ds)

/-- The text of a duration, in the largest unit in which it is at least one. -/
def text (d : Duration) : String :=
  let n := d.nanos
  if 1000000000 ≤ n then decimalText (n / 1000000000) (n % 1000000000) 9 ++ "s"
  else if 1000000 ≤ n then decimalText (n / 1000000) (n % 1000000) 6 ++ "ms"
  else if 1000 ≤ n then decimalText (n / 1000) (n % 1000) 3 ++ "µs"
  else toString n ++ "ns"

end Duration

end SealedChannel
