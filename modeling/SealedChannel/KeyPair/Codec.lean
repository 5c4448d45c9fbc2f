import SealedChannel.Json.Decode
import SealedChannel.Json.Parser
import SealedChannel.Json.Printer
import SealedChannel.KeyPair
import SealedChannel.Text.Base64

/-!
# Key pairs as JSON

A key pair is stored and served as an object with two base64 strings.  A key that is left out or
`null` is the empty byte string, which no check accepts.

## What is here

* `KeyPair.toJson`, `KeyPair.ofJson?` — a pair as a JSON value.
* `KeyPair.encode`, `KeyPair.decode?` — a pair as a stored byte string.
-/

set_option autoImplicit false
namespace SealedChannel
namespace KeyPair

/-- A key pair as a JSON value. -/
def toJson (pair : KeyPair) : Json :=
  .record [("encr", .ofText (Base64.encode pair.encr)), ("sign", .ofText (Base64.encode pair.sign))]

/-- One key: a base64 string, or `null` for the empty byte string. -/
def keyOfJson? : Json → Option Bytes
  | .null => some []
  | value => value.text?.bind Base64.decode?

/-- The key pair of a JSON value. -/
def ofJson? (value : Json) : Option KeyPair := do
  let r ← Json.Record.ofJson? ["encr", "sign"] value
  let encr ← r.defaulted "encr" [] keyOfJson?
  let sign ← r.defaulted "sign" [] keyOfJson?
  some ⟨encr, sign⟩

/-- The stored form of a key pair. -/
def encode (pair : KeyPair) : Bytes :=
  pair.toJson.print

/-- The key pair of a stored byte string. -/
def decode? (bs : Bytes) : Option KeyPair :=
  (Json.parse? bs).bind ofJson?

end KeyPair

end SealedChannel
