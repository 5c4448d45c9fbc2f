import SealedChannel.Text.Split
import SealedChannel.Text.Utf8

/-!
# Form encoding

The query of a request is a list of pairs in the format `application/x-www-form-urlencoded`: pairs
are joined by `&`, a pair by `=`, a blank is written `+`, and every other byte outside a small set
is written as `%` and two hexadecimal digits.

## What is here

* `Form.decodeBytes` — the bytes of one encoded part; a `%` without two digits stands for itself.
* `Form.parse` — the pairs of a query; empty parts are skipped.
* `Form.encodeBytes`, `Form.print` — the reverse direction.
-/

set_option autoImplicit false
namespace SealedChannel
namespace Form

/-! ## Reading -/

/-- The value of a hexadecimal digit of either case. -/
def hexValue? (b : UInt8) : Option Nat :=
  let n := b.toNat
  if 48 ≤ n ∧ n ≤ 57 then some (n - 48)
  else if 65 ≤ n ∧ n ≤ 70 then some (n - 55)
  else if 97 ≤ n ∧ n ≤ 102 then some (n - 87)
  else none

/-- The bytes that an encoded part stands for. -/
def decodeBytes : Bytes → Bytes
  | [] => []
  | 0x25 :: a :: b :: rest =>
    match hexValue? a, hexValue? b with
    | some x, some y => UInt8.ofNat (16 * x + y) :: decodeBytes rest
    | _, _ => 0x25 :: decodeBytes (a :: b :: rest)
  | b :: rest => (if b = 0x2B then 0x20 else b) :: decodeBytes rest

/-- The text of an encoded part. -/
def decodeText (part : Bytes) : String :=
  Utf8.decodeLossy (decodeBytes part)

/-- A pair, cut at its first `=`; a part without one is a name with an empty value. -/
def pair (part : Bytes) : String × String :=
  let (name, value) := Text.cutAt 0x3D part
  (decodeText name, decodeText (value.getD []))

/-- The pairs of a query, first to last. -/
def parse (query : Bytes) : List (String × String) :=
  ((Text.splitOn 0x26 query).filter fun part => !part.isEmpty).map pair

/-! ## Writing -/

/-- Whether a byte is written as itself. -/
def isPlain (b : UInt8) : Bool :=
  let n := b.toNat
  (48 ≤ n && n ≤ 57) || (65 ≤ n && n ≤ 90) || (97 ≤ n && n ≤ 122)
    || n == 0x2A || n == 0x2D || n == 0x2E || n == 0x5F

/-- One upper-case hexadecimal digit. -/
def hexDigit (n : Nat) : UInt8 :=
  UInt8.ofNat (if n < 10 then 48 + n else 55 + n)

/-- The encoded form of one byte. -/
def encodeByte (b : UInt8) : Bytes :=
  if isPlain b then [b]
  else if b = 0x20 then [0x2B]
  else [0x25, hexDigit (b.toNat / 16), hexDigit (b.toNat % 16)]

/-- The encoded form of a byte string. -/
def encodeBytes (bs : Bytes) : Bytes :=
  bs.flatMap encodeByte

/-- The encoded form of a list of pairs. -/
def print (pairs : List (String × String)) : Bytes :=
  List.intercalate [0x26] <| pairs.map fun (name, value) =>
    encodeBytes (Bytes.ofText name) ++ 0x3D :: encodeBytes (Bytes.ofText value)

end Form

end SealedChannel
