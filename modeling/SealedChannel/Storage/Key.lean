import SealedChannel.Bytes

/-!
# Store keys

The one store holds three kinds of value, told apart by how their keys begin.

## What is here

* `Key.pubkey`, `Key.backup`, `Key.mode` — the keys of a user's key pair, of a user's backup and of
  a channel's encryption mode.
-/

set_option autoImplicit false
namespace SealedChannel
namespace Key

/-- The key of a user's public key pair. -/
def pubkey (userId : String) : String :=
  "pubkey:" ++ userId

/-- The key of a user's backup. -/
def backup (userId : String) : String :=
  "backup_gpg:" ++ userId

/-- The key of a channel's encryption mode. -/
def mode (channelId : String) : String :=
  "chanEncrMethod:" ++ channelId

end Key

end SealedChannel
