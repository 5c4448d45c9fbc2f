import SealedChannel.Bytes

/-!
# JSON values

A JSON value is kept as it was written: a number is its characters, a string the bytes between its
quotes, and an object the list of its members in order, repeated names included.  What a string or
a number means is decided where it is read, because a member that nobody reads may hold a string
that is no text.

## What is here

* `Json` — the values.
* `Json.isSpace`, `Json.strip` — the four blanks that may stand around a value.
* `Json.natural?` — the number that a numeral without sign, fraction or exponent writes.
* `Json.escape` — how a text is written between quotes.
* `Json.ofText`, `Json.ofNat`, `Json.ofOption`, `Json.record` — values from data.
-/

set_option autoImplicit false
namespace SealedChannel

/-- A JSON value as it was written. -/
inductive Json where
  | null
  | bool (b : Bool)
  | number (raw : Bytes)
  | string (raw : Bytes)
  | array (items : List Json)
  | object (members : List (Bytes × Json))
  deriving Repr, Inhabited

namespace Json

/-! ## Blanks -/

/-- Whether a byte may stand between the parts of a value. -/
def isSpace (b : UInt8) : Bool :=
  b == 0x20 || b == 0x09 || b == 0x0A || b == 0x0D

/-- A byte string without the blanks at both ends. -/
def strip (bs : Bytes) : Bytes :=
  ((bs.dropWhile isSpace).reverse.dropWhile isSpace).reverse

/-! ## Numerals -/

/-- Whether a byte is a decimal digit. -/
def isDigit (b : UInt8) : Bool :=
  48 ≤ b.toNat && b.toNat ≤ 57

/-- The number that a list of digits writes. -/
def digitsToNat (bs : Bytes) : Nat :=
  bs.foldl (fun n b => 10 * n + (b.toNat - 48)) 0

/-- The number below `2 ^ 64` that a numeral writes; a sign, a leading zero, a fraction or an
exponent makes it another kind of number. -/
def natural? (raw : Bytes) : Option Nat :=
  let n := digitsToNat raw
  if !raw.isEmpty && raw.all isDigit && (raw.length == 1 || raw.head? != some 48) &&
      n < UInt64.size then
    some n
  else none

/-- The digits of a number. -/
def naturalDigits (n : Nat) : Bytes :=
  Bytes.ofChars (Nat.toDigits 10 n)

/-! ## Strings -/

/-- One character between quotes.  Quote and backslash are escaped, and so are the characters below
the blank, five of them by a letter of their own. -/
def escapeChar (c : Char) : List Char :=
  if c = '"' then ['\\', '"']
  else if c = '\\' then ['\\', '\\']
  else if c = '\x08' then ['\\', 'b']
  else if c = '\x0c' then ['\\', 'f']
  else if c = '\n' then ['\\', 'n']
  else if c = '\r' then ['\\', 'r']
  else if c = '\t' then ['\\', 't']
  else if c.toNat < 0x20 then
    ['\\', 'u', '0', '0', Bytes.hexDigit (c.toNat / 16), Bytes.hexDigit (c.toNat % 16)]
  else [c]

/-- The bytes of a text between quotes. -/
def escape (s : String) : Bytes :=
  Bytes.ofChars (s.toList.flatMap escapeChar)

/-! ## Values from data -/

/-- A text as a value. -/
def ofText (s : String) : Json :=
  .string (escape s)

/-- A number as a value. -/
def ofNat (n : Nat) : Json :=
  .number (naturalDigits n)

/-- An absent value is `null`. -/
def ofOption {α : Type} (toJson : α → Json) : Option α → Json
  | none => .null
  | some a => toJson a

/-- A list of values. -/
def ofList {α : Type} (toJson : α → Json) (as : List α) : Json :=
  .array (as.map toJson)

/-- An object with the given members. -/
def record (members : List (String × Json)) : Json :=
  .object (members.map fun (name, value) => (escape name, value))

end Json

end SealedChannel
