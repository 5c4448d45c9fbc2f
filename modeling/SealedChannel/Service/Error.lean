import SealedChannel.KeyPair
import SealedChannel.KeyServer.Error
import SealedChannel.Storage.PublicKeys

/-!
# Service errors

## What is here

* `ServiceError` — why a request to the service failed, with its text in `ServiceError.message`.
-/

set_option autoImplicit false
namespace SealedChannel

/-- Why a request to the service failed. -/
inductive ServiceError where
  /-- The request names no user. -/
  | unauthorized
  /-- The request cannot be read. -/
  | badRequest (reason : String)
  /-- A key pair does not pass the check. -/
  | invalidKey (cause : KeyError)
  /-- The user is not known to be a member of the channel. -/
  | notChannelMember (userId channelId : String) (cause : HostError)
  /-- The user has no backup. -/
  | noBackup
  /-- There is no such slash command. -/
  | unknownCommand (word : String)
  /-- The backup was not mailed. -/
  | backupMail (cause : HostError)
  /-- No key was obtained from the key server. -/
  | keyServer (email : String) (cause : KeyServer.Error)
  | store (cause : StoreError)
  | publicKey (cause : PublicKeyError)
  | host (cause : HostError)
  deriving DecidableEq, Repr

/-- The text of an error. -/
def ServiceError.message : ServiceError → String
  | .unauthorized => "Not authorized"
  | .badRequest reason => "invalid request: " ++ reason
  | .invalidKey _ => "invalid elliptic curve key"
  | .notChannelMember userId channelId _ =>
    "user " ++ userId ++ " is not a member of channel " ++ channelId
  | .noBackup => "unable to find a GPG backup"
  | .unknownCommand word => "unknown command " ++ word
  | .backupMail cause => "Error while sending GPG backup: " ++ cause.message
  | .keyServer email cause => "Unable to get GPG key for '" ++ email ++ "': " ++ cause.message
  | .store cause => cause.message
  | .publicKey cause => cause.message
  | .host cause => cause.message

end SealedChannel
