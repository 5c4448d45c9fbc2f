import SealedChannel.Json.Decode

/-!
# Real-time events

## What is here

* `Broadcast` — the audience of an event, with its JSON form.
* `Event` — a named event with a JSON payload and an audience.
-/

set_option autoImplicit false
namespace SealedChannel

/-- The audience of an event. -/
structure Broadcast where
  /-- Deliver to the members of this channel only. -/
  channelId : Option String
  /-- Deliver to this user only. -/
  userId : Option String
  /-- Never deliver to these users. -/
  omitUsers : List String
  deriving DecidableEq, Repr, Inhabited

namespace Broadcast

/-- The members of a channel. -/
def toChannel (channelId : String) : Broadcast :=
  ⟨some channelId, none, []⟩

/-- Every user but one. -/
def everyoneExcept (userId : String) : Broadcast :=
  ⟨none, none, [userId]⟩

/-- An audience as a JSON value. -/
def toJson (b : Broadcast) : Json :=
  .record [("channel_id", .ofOption .ofText b.channelId), ("user_id", .ofOption .ofText b.userId),
    ("omit_users", .ofList .ofText b.omitUsers)]

/-- The audience of a JSON value. -/
def ofJson? (value : Json) : Option Broadcast := do
  let r ← Json.Record.ofJson? ["channel_id", "user_id", "omit_users"] value
  let channelId ← r.optional "channel_id" Json.text?
  let userId ← r.optional "user_id" Json.text?
  let omitUsers ← r.defaulted "omit_users" [] (Json.list? Json.text?)
  some ⟨channelId, userId, omitUsers⟩

end Broadcast

/-- A real-time event. -/
structure Event where
  name : String
  payload : Json
  audience : Broadcast
  deriving Repr, Inhabited

end SealedChannel
