import SealedChannel.Toml.Item
import SealedChannel.Toml.Quoted

/-!
# TOML numbers

Digits may be grouped by single underscores, each between two digits.

## What is here

* `Toml.digits?` — digits, with their underscores taken out.
* `Toml.integer?` — decimal, hexadecimal, octal and binary integers of 64 bits with a sign.
* `Toml.float?` — floats; one that is too large is refused unless it is negative.
-/

set_option autoImplicit false
namespace SealedChannel
namespace Toml

/-! ## Digits -/

/-- Whether a character is a digit of a base. -/
def isDigitOf (base : Nat) (c : Char) : Bool :=
  match hexValue? c with
  | some n => n < base
  | none => false

/-- The digits after a digit, each perhaps after an underscore, and what follows them. -/
def moreDigits (base : Nat) : List Char → List Char × List Char
  | [] => ([], [])
  | '_' :: c :: rest =>
    if isDigitOf base c then
      let (ds, rest) := moreDigits base rest
      (c :: ds, rest)
    else ([], '_' :: c :: rest)
  | c :: rest =>
    if isDigitOf base c then
      let (ds, rest) := moreDigits base rest
      (c :: ds, rest)
    else ([], c :: rest)

/-- At least one digit, without underscores, and what follows. -/
def digits? (base : Nat) : List Char → Option (List Char × List Char)
  | [] => none
  | c :: rest =>
    if isDigitOf base c then
      let (ds, rest) := moreDigits base rest
      some (c :: ds, rest)
    else none

/-- The number that digits write. -/
def digitsValue (base : Nat) (ds : List Char) : Nat :=
  ds.foldl (fun n c => base * n + (hexValue? c).getD 0) 0

/-- Whether a number is negative, and what follows its sign. -/
def signOf : List Char → Bool × List Char
  | '-' :: rest => (true, rest)
  | '+' :: rest => (false, rest)
  | cs => (false, cs)

/-- Decimal digits without a leading zero, or a single zero. -/
def decimal? (cs : List Char) : Option (List Char × List Char) :=
  match cs with
  | '0' :: rest => some (['0'], rest)
  | _ => digits? 10 cs

/-! ## Integers -/

/-- A number between the least and the greatest integer of 64 bits. -/
def inRange (n : Int) : Bool :=
  Int64.minValue.toInt ≤ n && n ≤ Int64.maxValue.toInt

/-- Digits in another base than ten, as an integer. -/
def integerIn? (base : Nat) (cs : List Char) : Option (Scalar × List Char) := do
  let (ds, rest) ← digits? base cs
  let n : Int := digitsValue base ds
  if inRange n then some (.integer n, rest) else none

/-- An integer. -/
def integer? : List Char → Option (Scalar × List Char)
  | '0' :: 'x' :: rest => integerIn? 16 rest
  | '0' :: 'o' :: rest => integerIn? 8 rest
  | '0' :: 'b' :: rest => integerIn? 2 rest
  | cs => do
    let (isNegative, rest) := signOf cs
    let (ds, rest) ← decimal? rest
    let magnitude : Int := digitsValue 10 ds
    let n := if isNegative then -magnitude else magnitude
    if inRange n then some (.integer n, rest) else none

/-! ## Floats -/

/-- The part of a float after its point. -/
def fraction? : List Char → Option (List Char × List Char)
  | '.' :: rest => digits? 10 rest
  | _ => none

/-- The exponent of a float. -/
def exponent? : List Char → Option (Int × List Char)
  | c :: rest =>
    if c == 'e' || c == 'E' then do
      let (isNegative, rest) := signOf rest
      let (ds, rest) ← digits? 10 rest
      let n : Int := digitsValue 10 ds
      some (if isNegative then -n else n, rest)
    else none
  | [] => none

/-- What follows the point and the exponent of a float, of which one must be there. -/
def tail? (cs : List Char) : Option ((List Char × Int) × List Char) :=
  match fraction? cs with
  | some (ds, rest) =>
    match exponent? rest with
    | some (e, rest) => some ((ds, e), rest)
    | none => some ((ds, 0), rest)
  | none => (exponent? cs).map fun (e, rest) => (([], e), rest)

/-- Whether the number `n * 10 ^ e` rounds to infinity as a double: it is at least halfway between
the largest double and the next power of two.  A number with far too many or too few places is
decided by its places alone. -/
def isTooLarge (n : Nat) (e : Int) : Bool :=
  if n = 0 then false
  else
    let places := (Nat.toDigits 10 n).length + e
    if 400 < places then true
    else if places < 300 then false
    else
      let bound := Nat.pow 2 1024 - Nat.pow 2 970
      if 0 ≤ e then bound ≤ n * Nat.pow 10 e.toNat else bound * Nat.pow 10 (-e).toNat ≤ n

/-- Infinity or not-a-number, after the sign. -/
def special? : List Char → Option (Scalar × List Char)
  | 'i' :: 'n' :: 'f' :: rest => some (.float, rest)
  | 'n' :: 'a' :: 'n' :: rest => some (.float, rest)
  | _ => none

/-- A float. -/
def float? (cs : List Char) : Option (Scalar × List Char) :=
  let (isNegative, unsigned) := signOf cs
  match decimal? unsigned with
  | none => special? unsigned
  | some (whole, rest) =>
    match tail? rest with
    | none => none
    | some ((fraction, e), rest) =>
      let n := digitsValue 10 (whole ++ fraction)
      if !isNegative && isTooLarge n (e - fraction.length) then none else some (.float, rest)

end Toml

end SealedChannel
