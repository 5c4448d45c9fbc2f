import SealedChannel.Json.Basic
import SealedChannel.Text.Utf8

/-!
# Reading data from JSON

A structure is read from an object, by the names of its members, or from an array, by position.
Members with unknown names are skipped whatever they hold, but their names must be text; a known
name may occur once.

## What is here

* `Json.Diagnosis` — what is said about bytes that cannot be read.
* `Json.unescape?` — the text that the bytes between two quotes write.
* `Json.text?`, `Json.bool?`, `Json.size?`, `Json.list?`, `Json.nullable?` — scalars and lists.
* `Json.Record` — the members of a structure, from an object or an array.
* `Record.required`, `Record.defaulted`, `Record.optional` — the three kinds of member.
-/

set_option autoImplicit false
namespace SealedChannel
namespace Json

/-- What is said about bytes that hold no value of some form. -/
abbrev Diagnosis : Type :=
  Bytes → String

/-! ## Strings -/

/-- The value of a hexadecimal digit of either case. -/
def hexValue (b : UInt8) : Nat :=
  let n := b.toNat
  if n < 58 then n - 48 else if n < 71 then n - 55 else n - 87

/-- The value of four hexadecimal digits. -/
def hexQuad (a b c d : UInt8) : Nat :=
  ((hexValue a * 16 + hexValue b) * 16 + hexValue c) * 16 + hexValue d

/-- The byte that an escape of one letter stands for. -/
def escapedByte (b : UInt8) : UInt8 :=
  match b with
  | 0x62 => 0x08
  | 0x66 => 0x0C
  | 0x6E => 0x0A
  | 0x72 => 0x0D
  | 0x74 => 0x09
  | b => b

/-- The bytes of a string with its escapes resolved, after the bytes `done`, latest first.  An
escape of the first half of a surrogate pair must be followed by one of the second half. -/
def unescapeFrom (done : Bytes) : Bytes → Option Bytes
  | [] => some done.reverse
  | 0x5C :: 0x75 :: a :: b :: c :: d :: rest =>
    let n := hexQuad a b c d
    if n < 0xD800 ∨ 0xDFFF < n then
      unescapeFrom ((Bytes.ofChars [Char.ofNat n]).reverse ++ done) rest
    else if 0xDC00 ≤ n then none
    else
      match rest with
      | 0x5C :: 0x75 :: e :: f :: g :: h :: rest =>
        let l := hexQuad e f g h
        if 0xDC00 ≤ l ∧ l ≤ 0xDFFF then
          let code := 0x10000 + (n - 0xD800) * 0x400 + (l - 0xDC00)
          unescapeFrom ((Bytes.ofChars [Char.ofNat code]).reverse ++ done) rest
        else none
      | _ => none
  | 0x5C :: b :: rest => unescapeFrom (escapedByte b :: done) rest
  | b :: rest => unescapeFrom (b :: done) rest

/-- The text that the bytes between two quotes write, if they are text. -/
def unescape? (raw : Bytes) : Option String :=
  (unescapeFrom [] raw).bind Utf8.decode?

/-! ## Scalars and lists -/

/-- The text of a string value. -/
def text? : Json → Option String
  | .string raw => unescape? raw
  | _ => none

/-- The truth value of a value. -/
def bool? : Json → Option Bool
  | .bool b => some b
  | _ => none

/-- The number below `2 ^ 64` of a value. -/
def size? : Json → Option Nat
  | .number raw => natural? raw
  | _ => none

/-- The items of an array, each read in the same way. -/
def list? {α : Type} (read : Json → Option α) : Json → Option (List α)
  | .array items => items.mapM read
  | _ => none

/-- A value that may be `null`. -/
def nullable? {α : Type} (read : Json → Option α) : Json → Option (Option α)
  | .null => some none
  | value => (read value).map some

/-! ## Structures -/

/-- The members of a structure. -/
structure Record where
  /-- Whether the members were given by position. -/
  positional : Bool
  members : List (String × Json)

namespace Record

/-- The members of an object whose names are known, if every name is text and no known name is
repeated. -/
def ofObject? (names : List String) (members : List (Bytes × Json)) : Option Record := do
  let named ← members.mapM fun (raw, value) => (unescape? raw).map fun name => (name, value)
  let known := named.filter fun member => names.contains member.1
  if (known.map Prod.fst).Nodup then some ⟨false, known⟩ else none

/-- The members of a structure with these names, in the order in which an array gives them. -/
def ofJson? (names : List String) : Json → Option Record
  | .array items => if items.length ≤ names.length then some ⟨true, names.zip items⟩ else none
  | .object members => ofObject? names members
  | _ => none

/-- The member with a name. -/
def get? (r : Record) (name : String) : Option Json :=
  r.members.lookup name

variable {α : Type}

/-- A member that must be there. -/
def required (r : Record) (name : String) (read : Json → Option α) : Option α :=
  (r.get? name).bind read

/-- A member with a default. -/
def defaulted (r : Record) (name : String) (default : α) (read : Json → Option α) : Option α :=
  match r.get? name with
  | none => some default
  | some value => read value

/-- A member that may be `null`, and that may be left out where members are given by name. -/
def optional (r : Record) (name : String) (read : Json → Option α) : Option (Option α) :=
  match r.get? name with
  | none => if r.positional then none else some none
  | some value => nullable? read value

end Record

end Json

end SealedChannel
