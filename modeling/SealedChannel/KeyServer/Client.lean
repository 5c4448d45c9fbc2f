import SealedChannel.KeyServer.Armor
import SealedChannel.KeyServer.Index
import SealedChannel.Program

/-!
# Asking a key server

## What is here

* `Client.lookup` — one request; a server that knows nothing answers with the status 404.
* `Client.index` — the records for a mail address.
* `Client.firstUsableKeyId` — the id of the first usable record.
* `Client.key` — the key block for an id, of which only the end is sent.
* `Client.fetch` — the key block for a mail address.
-/

set_option autoImplicit false
namespace SealedChannel
namespace KeyServer
namespace Client

/-- One request to the key server at an address: the text of a successful reply, or `none` if
nothing matches. -/
def lookup (address : String) (pairs : List (String × String)) :
    Operation Error (Option String) := do
  let target := lookupTarget address pairs
  match ← (ExceptT.lift (Program.perform (.fetch target)) : Operation Error _) with
  | .error reason => throw (.transport reason)
  | .ok reply =>
    if 200 ≤ reply.status ∧ reply.status < 300 then return some (Utf8.decodeLossy reply.body)
    else if reply.status = 404 then return none
    else throw (.status reply.status)

/-- The records for a mail address. -/
def index (address email : String) : Operation Error (List Listing) := do
  match ← lookup address [("op", "index"), ("options", "mr"), ("search", email)] with
  | none => return []
  | some body => return Index.parse body

/-- The id of the first usable record for a mail address. -/
def firstUsableKeyId (address email : String) : Operation Error String := do
  let listings ← index address email
  ExceptT.mk (pure (Index.firstUsable listings))

/-- The key block for an id. -/
def key (address keyId : String) : Operation Error String := do
  match ← lookup address [("op", "get"), ("search", "0x" ++ shortKeyId keyId)] with
  | none => throw .noValidKey
  | some body => ExceptT.mk (pure (Armor.extract body))

/-- The key block of the first usable record for a mail address. -/
def fetch (address email : String) : Operation Error String := do
  let keyId ← firstUsableKeyId address email
  key address keyId

end Client

end KeyServer

end SealedChannel
