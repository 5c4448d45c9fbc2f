import SealedChannel.Json.Basic

/-!
# Writing JSON

## What is here

* `Json.print` — the compact form of a value: no blanks, members in order.
-/

set_option autoImplicit false
namespace SealedChannel
namespace Json

/-- The bytes of a string with its quotes. -/
def quoted (raw : Bytes) : Bytes :=
  0x22 :: (raw ++ [0x22])

mutual

/-- The compact form of a value. -/
def print : Json → Bytes
  | .null => Bytes.ofText "null"
  | .bool true => Bytes.ofText "true"
  | .bool false => Bytes.ofText "false"
  | .number raw => raw
  | .string raw => quoted raw
  | .array [] => [0x5B, 0x5D]
  | .array (item :: items) => 0x5B :: (print item ++ printItems items)
  | .object [] => [0x7B, 0x7D]
  | .object ((name, value) :: members) =>
    0x7B :: (quoted name ++ 0x3A :: (print value ++ printMembers members))

/-- The items after the first one, and the closing bracket. -/
def printItems : List Json → Bytes
  | [] => [0x5D]
  | item :: items => 0x2C :: (print item ++ printItems items)

/-- The members after the first one, and the closing brace. -/
def printMembers : List (Bytes × Json) → Bytes
  | [] => [0x7D]
  | (name, value) :: members =>
    0x2C :: (quoted name ++ 0x3A :: (print value ++ printMembers members))

end

end Json

end SealedChannel
