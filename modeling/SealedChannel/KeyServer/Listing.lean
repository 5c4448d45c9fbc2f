import SealedChannel.Json.Printer
import SealedChannel.KeyServer.Algorithm
import SealedChannel.Time.Timestamp

/-!
# Key records

A key server answers a search with one record for each key it knows.

## What is here

* `Listing` — a record.
* `Listing.isUsable` — neither revoked nor disabled nor expired.
* `shortKeyId` — the end of a key id, by which a key is asked for.
* `Listing.toJson`, `Listing.text` — a record as JSON and as one line for people.
-/

set_option autoImplicit false
namespace SealedChannel
namespace KeyServer

/-- A key that a key server knows.  A field that is missing or unreadable is absent. -/
structure Listing where
  keyId : String
  algorithm : Option Algorithm
  keyLength : Option Nat
  created : Option Timestamp
  expires : Option Timestamp
  revoked : Bool
  disabled : Bool
  expired : Bool
  deriving DecidableEq, Repr

/-! ## Short ids -/

/-- The number of bytes of a short key id. -/
def shortLength : Nat := 8

/-- The number of bytes of a text. -/
def byteLength (cs : List Char) : Nat :=
  (cs.flatMap String.utf8EncodeChar).length

/-- The longest end of a text that is at most `n` bytes long, for a text of `total` bytes. -/
def endWithin (n : Nat) : Nat → List Char → List Char
  | _, [] => []
  | total, c :: cs =>
    if total ≤ n then c :: cs else endWithin n (total - (String.utf8EncodeChar c).length) cs

/-- The last eight bytes of a key id.  An id that is shorter, or that has no character boundary
there, is kept whole. -/
def shortKeyId (id : String) : String :=
  let cs := endWithin shortLength (byteLength id.toList) id.toList
  if byteLength cs = shortLength then String.ofList cs else id

/-! ## Records -/

namespace Listing

/-- Neither revoked nor disabled nor expired. -/
def isUsable (l : Listing) : Bool :=
  !(l.revoked || l.disabled || l.expired)

/-- The letters of the flags of a record. -/
def flags (l : Listing) : String :=
  (if l.revoked then "r" else "") ++ (if l.disabled then "d" else "")
    ++ (if l.expired then "e" else "")

/-- A record as a JSON value. -/
def toJson (l : Listing) : Json :=
  .record [("key_id", .ofText l.keyId),
    ("algorithm", .ofOption (fun a => .ofText a.tag) l.algorithm),
    ("key_len", .ofOption .ofNat l.keyLength),
    ("created_at", .ofOption (fun t => .ofText (t.text "Z")) l.created),
    ("expires_at", .ofOption (fun t => .ofText (t.text "Z")) l.expires),
    ("revoked", .bool l.revoked), ("disabled", .bool l.disabled), ("expired", .bool l.expired)]

/-- One named time of a record, if it is present. -/
def timeText (label : String) : Option Timestamp → String
  | none => ""
  | some t => " " ++ label ++ " " ++ t.text "+00:00"

/-- A record as one line for people. -/
def text (l : Listing) : String :=
  l.keyId ++ " [" ++ (l.algorithm.map Algorithm.name).getD "unknown" ++ ":"
    ++ toString (l.keyLength.getD 0) ++ "]" ++ timeText "created" l.created
    ++ timeText "expires" l.expires ++ (if l.flags = "" then "" else " " ++ l.flags)

end Listing

end KeyServer

end SealedChannel
