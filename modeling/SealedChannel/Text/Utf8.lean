import SealedChannel.Bytes

/-!
# Reading UTF-8

Byte strings that come from the store or from a request need not be valid text.  The decoder here
is a machine that takes one byte at a time; it turns a byte string into *pieces*, one for each
character and one for each malformed part, and the two readings differ only in what they make of a
malformed part.

A malformed part is a maximal one: the bytes that could still begin a character, up to the first
byte that cannot continue it.

## What is here

* `Utf8.Pending` — a character of which the first bytes have been read.
* `Utf8.Decoder` — the machine, with `Decoder.step` and `Decoder.finish`.
* `Utf8.pieces` — the characters of a byte string, `none` for a malformed part.
* `Utf8.decode?` — the text of a byte string without malformed parts.
* `Utf8.decodeLossy` — the text of any byte string, `U+FFFD` for a malformed part.
-/

set_option autoImplicit false
namespace SealedChannel
namespace Utf8

/-! ## The machine -/

/-- A character of which the first bytes have been read: the bits gathered so far, the number of
bytes still owed, and the bounds of the next one. -/
structure Pending where
  bits : Nat
  owed : Nat
  low : Nat
  high : Nat
  deriving DecidableEq, Repr

/-- What the first byte of a character promises: `none` for a byte that begins no character. -/
def lead (b : Nat) : Option Pending :=
  if b < 0xC2 then none
  else if b < 0xE0 then some ⟨b - 0xC0, 1, 0x80, 0xBF⟩
  else if b = 0xE0 then some ⟨0x0, 2, 0xA0, 0xBF⟩
  else if b = 0xED then some ⟨0xD, 2, 0x80, 0x9F⟩
  else if b < 0xF0 then some ⟨b - 0xE0, 2, 0x80, 0xBF⟩
  else if b = 0xF0 then some ⟨0x0, 3, 0x90, 0xBF⟩
  else if b < 0xF4 then some ⟨b - 0xF0, 3, 0x80, 0xBF⟩
  else if b = 0xF4 then some ⟨0x4, 3, 0x80, 0x8F⟩
  else none

/-- The machine: the pieces read so far, latest first, and the character that is under way. -/
structure Decoder where
  done : List (Option Char)
  pending : Option Pending

namespace Decoder

/-- The machine before the first byte. -/
def start : Decoder :=
  ⟨[], none⟩

/-- Takes a byte where a character may begin. -/
def enter (done : List (Option Char)) (b : Nat) : Decoder :=
  if b < 0x80 then ⟨some (Char.ofNat b) :: done, none⟩
  else
    match lead b with
    | none => ⟨none :: done, none⟩
    | some p => ⟨done, some p⟩

/-- Takes one byte.  A byte that cannot continue the character under way ends a malformed part and
is read again where a character may begin. -/
def step (d : Decoder) (b : UInt8) : Decoder :=
  let n := b.toNat
  match d.pending with
  | none => .enter d.done n
  | some p =>
    if p.low ≤ n ∧ n ≤ p.high then
      let bits := 64 * p.bits + (n - 0x80)
      if p.owed ≤ 1 then ⟨some (Char.ofNat bits) :: d.done, none⟩
      else ⟨d.done, some ⟨bits, p.owed - 1, 0x80, 0xBF⟩⟩
    else .enter (none :: d.done) n

/-- The pieces, first to last; a character that is cut off at the end is malformed. -/
def finish (d : Decoder) : List (Option Char) :=
  match d.pending with
  | none => d.done.reverse
  | some _ => (none :: d.done).reverse

end Decoder

/-! ## Two readings -/

/-- The characters of a byte string, `none` for each malformed part. -/
def pieces (bs : Bytes) : List (Option Char) :=
  (bs.foldl Decoder.step .start).finish

/-- The text of a byte string that is valid UTF-8. -/
def decode? (bs : Bytes) : Option String :=
  let ps := pieces bs
  if ps.all Option.isSome then some (String.ofList (ps.filterMap id)) else none

/-- The text of a byte string, with the replacement character for each malformed part. -/
def decodeLossy (bs : Bytes) : String :=
  String.ofList ((pieces bs).map (·.getD '\uFFFD'))

end Utf8

end SealedChannel
