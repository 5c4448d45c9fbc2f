import SealedChannel.KeyServer.Client
import SealedChannel.Service.Basic
import SealedChannel.Storage.Backups

/-!
# Publishing and looking up keys

## What is here

* `KeyPush` — a key pair to be published, with a backup or without one, and its JSON form.
* `Service.pushKeys` — checks and stores a key pair, announces it, and brings the backup up to date.
* `Service.mailBackup` — mails a user's backup to that user.
* `Service.keysOf` — the key pairs of several users.
* `Service.gpgKeyOf` — a user's key block from the key server.
-/

set_option autoImplicit false
namespace SealedChannel

/-! ## Requests -/

/-- A key pair to be published. -/
structure KeyPush where
  pair : KeyPair
  /-- Without a backup, an earlier one is removed. -/
  backup : Option String
  deriving DecidableEq, Repr

namespace KeyPush

/-- A push as a JSON value. -/
def toJson (push : KeyPush) : Json :=
  .record [("pubkey", push.pair.toJson), ("backupGPG", .ofOption .ofText push.backup)]

/-- The push of a JSON value. -/
def ofJson? (value : Json) : Option KeyPush := do
  let r ← Json.Record.ofJson? ["pubkey", "backupGPG"] value
  let pair ← r.required "pubkey" KeyPair.ofJson?
  let backup ← r.defaulted "backupGPG" none (Json.nullable? Json.text?)
  some ⟨pair, backup⟩

end KeyPush

namespace Service

/-! ## Publishing -/

/-- Mails the stored backup of a user to that user. -/
def mailBackup (s : Service) (userId : String) : Operation ServiceError Unit := do
  let user : User ← ask (.getUser userId)
  let some backup ← Operation.wrap .store (Backups.get s.limit userId) | throw .noBackup
  let body := "<pre>" ++ backup ++ "</pre>"
  Operation.wrap .backupMail
    (.host (.sendMail user.email "Mattermost E2EE private key backup" body))

/-- The event that tells every other user of a new key pair. -/
def newKeyEvent (userId : String) : Event :=
  ⟨"newPubkey", .record [("userID", .ofText userId)], .everyoneExcept userId⟩

/-- Checks and stores the key pair of a user, tells the other users, and stores and mails the
backup or removes it.  That the event could not be published is no failure. -/
def pushKeys (s : Service) (userId : String) (push : KeyPush) : Operation ServiceError Unit := do
  if let .error cause := push.pair.check then throw (.invalidKey cause)
  Operation.wrap .publicKey (PublicKeys.set s.limit userId push.pair)
  let _ ← Operation.attempt (.host (.publishEvent (newKeyEvent userId)))
  match push.backup with
  | none => Operation.wrap .store (Backups.delete s.limit userId)
  | some backup =>
    Operation.wrap .store (Backups.store s.limit userId backup)
    s.mailBackup userId

/-! ## Looking up -/

/-- The key pairs of several users. -/
def keysOf (s : Service) (userIds : List String) :
    Operation ServiceError (Table (Option KeyPair)) :=
  .wrap .publicKey (PublicKeys.getMany s.diagnostics.keyPair s.limit userIds)

/-- The key block that the key server has for a user's mail address. -/
def gpgKeyOf (s : Service) (userId : String) : Operation ServiceError String := do
  let user : User ← ask (.getUser userId)
  Operation.wrap (.keyServer user.email) (KeyServer.Client.fetch s.settings.keyServer user.email)

end Service

end SealedChannel
