import SealedChannel.Bytes

/-!
# Base64

Keys are stored and served as base64 with the standard alphabet.  Three bytes make a quantum of
four characters; a last quantum of one or two bytes is padded with `=`.  Reading accepts what
writing produces and nothing else: the padding must be there, and the bits that a padded quantum
does not use must be zero.

## What is here

* `Base64.digit`, `Base64.value?` — the alphabet, both ways.
* `Base64.encode` — the text of a byte string.
* `Base64.decode?` — the byte string of a text.
-/

set_option autoImplicit false
namespace SealedChannel
namespace Base64

/-! ## The alphabet -/

/-- The character of a value below 64. -/
def digit (n : Nat) : Char :=
  if n < 26 then Char.ofNat (65 + n)
  else if n < 52 then Char.ofNat (71 + n)
  else if n < 62 then Char.ofNat (n - 4)
  else if n = 62 then '+'
  else '/'

/-- The value of a character of the alphabet. -/
def value? (c : Char) : Option Nat :=
  let n := c.toNat
  if 65 ≤ n ∧ n ≤ 90 then some (n - 65)
  else if 97 ≤ n ∧ n ≤ 122 then some (n - 71)
  else if 48 ≤ n ∧ n ≤ 57 then some (n + 4)
  else if c = '+' then some 62
  else if c = '/' then some 63
  else none

/-- Each value below 64 is the value of its character. -/
theorem value?_digit : ∀ n < 64, value? (digit n) = some n := by
  decide

/-! ## Writing and reading -/

/-- The characters of a byte string, a quantum of four for each three bytes. -/
def encodeChars : Bytes → List Char
  | [] => []
  | [a] => [digit (a.toNat / 4), digit (a.toNat % 4 * 16), '=', '=']
  | [a, b] =>
    [digit (a.toNat / 4), digit (a.toNat % 4 * 16 + b.toNat / 16), digit (b.toNat % 16 * 4), '=']
  | a :: b :: c :: rest =>
    digit (a.toNat / 4) :: digit (a.toNat % 4 * 16 + b.toNat / 16)
      :: digit (b.toNat % 16 * 4 + c.toNat / 64) :: digit (c.toNat % 64) :: encodeChars rest

/-- The base64 text of a byte string. -/
def encode (bs : Bytes) : String :=
  String.ofList (encodeChars bs)

/-- The last quantum of a text: two padded forms, with no bits left over, or three bytes. -/
def lastQuantum? (a b c d : Char) : Option Bytes := do
  let x ← value? a
  let y ← value? b
  if c = '=' ∧ d = '=' then
    if y % 16 = 0 then some [UInt8.ofNat (x * 4 + y / 16)] else none
  else
    let z ← value? c
    if d = '=' then
      if z % 4 = 0 then some [UInt8.ofNat (x * 4 + y / 16), UInt8.ofNat (y % 16 * 16 + z / 4)]
      else none
    else
      let w ← value? d
      some [UInt8.ofNat (x * 4 + y / 16), UInt8.ofNat (y % 16 * 16 + z / 4),
        UInt8.ofNat (z % 4 * 64 + w)]

/-- A quantum that another one follows: three bytes. -/
def innerQuantum? (a b c d : Char) : Option Bytes := do
  let x ← value? a
  let y ← value? b
  let z ← value? c
  let w ← value? d
  some [UInt8.ofNat (x * 4 + y / 16), UInt8.ofNat (y % 16 * 16 + z / 4),
    UInt8.ofNat (z % 4 * 64 + w)]

/-- The bytes that a list of characters writes. -/
def decodeChars? : List Char → Option Bytes
  | [] => some []
  | [a, b, c, d] => lastQuantum? a b c d
  | a :: b :: c :: d :: rest => do
    let quantum ← innerQuantum? a b c d
    let bytes ← decodeChars? rest
    some (quantum ++ bytes)
  | _ => none

/-- The byte string that a base64 text writes. -/
def decode? (s : String) : Option Bytes :=
  decodeChars? s.toList

end Base64

end SealedChannel
