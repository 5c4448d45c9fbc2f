import SealedChannel.Service.Basic

/-!
# The mode of a channel

Members of a channel may ask for its mode and change it.  A change is announced in the channel.

## What is here

* `Service.channelMode` — the mode, for a member.
* `Service.changeMode` — changes the mode on behalf of a member, and says whether it was another
  one.
* `Service.announcement` — the text of the announcement; after a switch to encryption it names the
  members who have no key pair yet.
-/

set_option autoImplicit false
namespace SealedChannel
namespace Service

/-- Fails unless the platform says that the user is a member of the channel. -/
def requireMember (userId channelId : String) : Operation ServiceError Unit := do
  let _ ← Operation.wrap (.notChannelMember userId channelId)
    (.host (.getChannelMember channelId userId))
  return ()

/-- The mode of a channel, for a member. -/
def channelMode (s : Service) (userId channelId : String) : Operation ServiceError Mode := do
  requireMember userId channelId
  ExceptT.lift (s.modes.get channelId)

/-! ## Announcing -/

/-- The mentions of users, each after a blank. -/
def mentions : List String → Operation ServiceError String
  | [] => return ""
  | userId :: rest => do
    let user : User ← ask (.getUser userId)
    let others ← mentions rest
    return " @" ++ user.username ++ others

/-- The warning about the members of a channel who have no key pair; empty if there are none. -/
def missingKeysWarning (s : Service) (channelId : String) : Operation ServiceError String := do
  let missing ← Operation.wrap .publicKey (PublicKeys.membersWithout s.limit channelId)
  if missing.isEmpty then return ""
  let mentioned ← mentions missing
  return "\n**WARNING**: these people in the channel have not set up an encryption key, "
    ++ "and therefore won't be able to read messages:" ++ mentioned

/-- The text that announces a mode to a channel. -/
def announcement (s : Service) (userId channelId : String) (mode : Mode) :
    Operation ServiceError String := do
  let user : User ← ask (.getUser userId)
  match mode with
  | .plain =>
    return "@all: messages on this channel **aren't encrypted anymore**. Set by @" ++ user.username
  | .p2p =>
    let warning ← s.missingKeysWarning channelId
    return "@all: messages on this channel are now encrypted. Set by @" ++ user.username
      ++ ".\n**WARNING**: people not in this channel won't be able to read the backlog."
      ++ warning

/-- The event that tells the members of a channel of its new mode. -/
def modeEvent (channelId : String) (mode : Mode) : Event :=
  ⟨"channelStateChanged", .record [("chanID", .ofText channelId), ("method", .ofText mode.name)],
    .toChannel channelId⟩

/-! ## Changing -/

/-- Tells a member, and nobody else, that the channel has the mode already. -/
def noticeUnchanged (s : Service) (userId channelId : String) (mode : Mode) :
    Operation ServiceError Unit := do
  let notice := "Channel is already on encryption mode '" ++ mode.name ++ "'"
  let _ ← Operation.attempt (.host (.sendEphemeralPost userId (s.botPost channelId notice)))
  return ()

/-- Changes the mode of a channel on behalf of a member, and says whether it was another one.  A
change is published as an event and announced by a post; only the post may fail. -/
def changeMode (s : Service) (userId channelId : String) (mode : Mode) :
    Operation ServiceError Bool := do
  requireMember userId channelId
  let changed ← Operation.wrap .store (s.modes.setIfDifferent channelId mode)
  if changed then
    let _ ← Operation.attempt (.host (.publishEvent (modeEvent channelId mode)))
    let message ← s.announcement userId channelId mode
    let _ ← ask (.createPost (s.botPost channelId message))
    return true
  else
    s.noticeUnchanged userId channelId mode
    return false

end Service

end SealedChannel
