import SealedChannel.Json.Decode

/-!
# Posts

## What is here

* `Post` — a message in a channel, with its JSON form `Post.toJson` and `Post.ofJson?`.
-/

set_option autoImplicit false
namespace SealedChannel

/-- A message in a channel. -/
structure Post where
  /-- The platform gives a post its id when it is created. -/
  id : String
  userId : String
  channelId : String
  message : String
  /-- Empty for ordinary posts. -/
  kind : String
  deriving DecidableEq, Repr, Inhabited

namespace Post

/-- An ordinary post that the platform has not created yet. -/
def draft (userId channelId message : String) : Post :=
  ⟨"", userId, channelId, message, ""⟩

/-- A post as a JSON value. -/
def toJson (p : Post) : Json :=
  .record [("id", .ofText p.id), ("user_id", .ofText p.userId),
    ("channel_id", .ofText p.channelId), ("message", .ofText p.message), ("type", .ofText p.kind)]

/-- The post of a JSON value; id and type may be left out. -/
def ofJson? (value : Json) : Option Post := do
  let r ← Json.Record.ofJson? ["id", "user_id", "channel_id", "message", "type"] value
  let id ← r.defaulted "id" "" Json.text?
  let userId ← r.required "user_id" Json.text?
  let channelId ← r.required "channel_id" Json.text?
  let message ← r.required "message" Json.text?
  let kind ← r.defaulted "type" "" Json.text?
  some ⟨id, userId, channelId, message, kind⟩

end Post

end SealedChannel
