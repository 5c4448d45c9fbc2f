import SealedChannel.Service.Basic

/-!
# Filtering posts

Before a post is created, the platform asks the service whether it may be.

## What is here

* `Verdict` — the answer.
* `Service.judge` — the verdict on a post.
-/

set_option autoImplicit false
namespace SealedChannel

/-- Whether a post may be created. -/
inductive Verdict where
  | allow
  | reject (reason : String)
  deriving DecidableEq, Repr

namespace Service

/-- The type of the posts that clients have encrypted. -/
def encryptedKind : String := "custom_e2ee"

/-- The verdict on a post on an encrypted channel, by its type. -/
def judgeKind (post : Post) : Verdict :=
  if post.kind = encryptedKind then .allow
  else .reject "Unencrypted messages can't be sent on an encrypted channel."

/-- Whether a post was written by the service's own account, which must be known. -/
def isOwnPost (s : Service) (post : Post) : Bool :=
  s.botUserId != "" && post.userId == s.botUserId

/-- The verdict on a post.  The service's own posts pass, and so does every post on a channel
without encryption.  Otherwise the post must be an encrypted one, or be written by a bot where bots
may post; a post whose author cannot be looked up then is rejected. -/
def judge (s : Service) (post : Post) : Program Verdict := do
  if s.isOwnPost post then return .allow
  match ← s.modes.get post.channelId with
  | .plain => return .allow
  | .p2p =>
    if s.settings.botsMayPost then
      match ← (Operation.host (.getUser post.userId)).run with
      | .ok (author : User) => return if author.isBot then .allow else judgeKind post
      | .error e => return .reject ("unable to check if user is a bot: " ++ e.message)
    else return judgeKind post

end Service

end SealedChannel
