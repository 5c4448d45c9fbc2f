import SealedChannel.Bytes

/-!
# Reading decimal numerals

Settings and key-server records hold decimal numbers as text.  A numeral is read from the left, and
the first character that is no digit or leaves the range decides the error.

## What is here

* `NumeralError` — why a text is no numeral in range, with its text in `NumeralError.message`.
* `Numeral.natural` — a number up to a limit; a leading `+` is allowed.
* `Numeral.integer?` — a number between two limits; a leading `+` or `-` is allowed.
* `Numeral.padded` — the digits of a number, with zeros in front up to a width.
-/

set_option autoImplicit false
namespace SealedChannel

/-- Why a text is not a number in range. -/
inductive NumeralError where
  /-- There is nothing to read. -/
  | empty
  /-- A character is no digit, or a sign stands alone. -/
  | invalidDigit
  /-- The number exceeds the limit. -/
  | tooLarge
  deriving DecidableEq, Repr

/-- The text of an error. -/
def NumeralError.message : NumeralError → String
  | .empty => "cannot parse integer from empty string"
  | .invalidDigit => "invalid digit found in string"
  | .tooLarge => "number too large to fit in target type"

namespace Numeral

/-- The value of a decimal digit. -/
def digit? (c : Char) : Option Nat :=
  if '0' ≤ c ∧ c ≤ '9' then some (c.toNat - 48) else none

/-- One more digit on the right, if the number stays within the limit. -/
def push (limit : Nat) (n : Nat) (c : Char) : Except NumeralError Nat :=
  match digit? c with
  | none => .error .invalidDigit
  | some d => if 10 * n + d ≤ limit then .ok (10 * n + d) else .error .tooLarge

/-- The number that a nonempty list of digits writes. -/
def digits (limit : Nat) (cs : List Char) : Except NumeralError Nat :=
  if cs.isEmpty then .error .invalidDigit else cs.foldlM (push limit) 0

/-- The number that a text writes, if it is at most `limit`. -/
def natural (limit : Nat) (cs : List Char) : Except NumeralError Nat :=
  match cs with
  | [] => .error .empty
  | c :: rest => digits limit (if c = '+' then rest else cs)

/-- The number that a text writes, if it lies between `-below` and `above`. -/
def integer? (below above : Nat) (cs : List Char) : Option Int :=
  match cs with
  | '-' :: rest => (digits below rest).toOption.map fun n => -(n : Int)
  | _ => (natural above cs).toOption.map Int.ofNat

/-- The digits of a number, with zeros in front up to a width. -/
def padded (width n : Nat) : String :=
  let ds := Nat.toDigits 10 n
  String.ofList (List.replicate (width - ds.length) '0' ++ ds)

end Numeral

end SealedChannel
