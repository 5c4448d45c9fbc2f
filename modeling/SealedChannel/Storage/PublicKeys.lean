import SealedChannel.KeyPair.Codec
import SealedChannel.Program
import SealedChannel.Storage.Key

/-!
# Stored key pairs

## What is here

* `PublicKeyError` — why a key pair was not obtained, with its text in `PublicKeyError.message`.
* `PublicKeys.set`, `PublicKeys.get`, `PublicKeys.has` — the key pair of one user.
* `PublicKeys.getMany` — the key pairs of several users.
* `PublicKeys.membersWithout` — the members of a channel who have published no key pair.
-/

set_option autoImplicit false
namespace SealedChannel

/-- Why a key pair was not obtained. -/
inductive PublicKeyError where
  | store (cause : StoreError)
  | host (cause : HostError)
  /-- There is a value, but it is no key pair, as the reader of the value says; this is never taken
  for an absent key. -/
  | corrupted (userId reason : String)
  deriving DecidableEq, Repr

/-- The text of an error. -/
def PublicKeyError.message : PublicKeyError → String
  | .store cause => cause.message
  | .host cause => cause.message
  | .corrupted userId reason =>
    "stored public key for user " ++ userId ++ " is corrupted: " ++ reason

namespace PublicKeys

/-- Stores the key pair of a user, in place of any earlier one. -/
def set (limit : Duration) (userId : String) (pair : KeyPair) : Operation PublicKeyError Unit :=
  .wrap .store (.store limit (.set (Key.pubkey userId) pair.encode))

/-- The value under a user's key. -/
def raw (limit : Duration) (userId : String) : Operation StoreError (Option Bytes) :=
  .store limit (.get (Key.pubkey userId))

/-- The key pair of a user, if there is one. -/
def get (diagnose : Json.Diagnosis) (limit : Duration) (userId : String) :
    Operation PublicKeyError (Option KeyPair) := do
  match ← Operation.wrap .store (raw limit userId) with
  | none => return none
  | some bytes =>
    match KeyPair.decode? bytes with
    | some pair => return some pair
    | none => throw (.corrupted userId (diagnose bytes))

/-- The key pairs of several users, added to those found so far. -/
def getManyFrom (diagnose : Json.Diagnosis) (limit : Duration) (found : Table (Option KeyPair)) :
    List String → Operation PublicKeyError (Table (Option KeyPair))
  | [] => return found
  | userId :: rest => do
    let pair ← get diagnose limit userId
    getManyFrom diagnose limit (found.insert userId pair) rest

/-- The key pairs of several users; a user without one is listed with `none`. -/
def getMany (diagnose : Json.Diagnosis) (limit : Duration) (userIds : List String) :
    Operation PublicKeyError (Table (Option KeyPair)) :=
  getManyFrom diagnose limit .empty userIds

/-- Whether anything is stored for a user, whether or not it is a key pair. -/
def has (limit : Duration) (userId : String) : Operation StoreError Bool :=
  Option.isSome <$> raw limit userId

/-- The users of a list for whom nothing is stored, in order. -/
def without (limit : Duration) : List String → Operation StoreError (List String)
  | [] => return []
  | userId :: rest => do
    let present ← has limit userId
    let others ← without limit rest
    return if present then others else userId :: others

/-- The members of a channel for whom nothing is stored, in the order of the member list. -/
def membersWithout (limit : Duration) (channelId : String) :
    Operation PublicKeyError (List String) := do
  let perPage : Nat ← Operation.wrap .host (.host .maxUsersPerTeam)
  let members : List ChannelMember ←
    Operation.wrap .host (.host (.getChannelMembers channelId 0 perPage))
  Operation.wrap .store (without limit (members.map ChannelMember.userId))

end PublicKeys

end SealedChannel
