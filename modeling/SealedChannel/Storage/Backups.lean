import SealedChannel.Program
import SealedChannel.Storage.Key
import SealedChannel.Text.Utf8

/-!
# Stored backups

A user may keep an encrypted backup of the private keys.  It is a text to the service.

## What is here

* `Backups.store`, `Backups.get`, `Backups.delete` — the backup of one user.
-/

set_option autoImplicit false
namespace SealedChannel
namespace Backups

/-- Stores the backup of a user, in place of any earlier one. -/
def store (limit : Duration) (userId backup : String) : Operation StoreError Unit :=
  .store limit (.set (Key.backup userId) (Bytes.ofText backup))

/-- The backup of a user, if there is one. -/
def get (limit : Duration) (userId : String) : Operation StoreError (Option String) := do
  let raw : Option Bytes ← Operation.store limit (.get (Key.backup userId))
  return raw.map Utf8.decodeLossy

/-- Removes the backup of a user. -/
def delete (limit : Duration) (userId : String) : Operation StoreError Unit :=
  .store limit (.delete (Key.backup userId))

end Backups

end SealedChannel
