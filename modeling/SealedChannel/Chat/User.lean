import SealedChannel.Json.Decode

/-!
# Accounts

## What is here

* `User` — an account of the chat platform; bots have accounts too.
* `ChannelMember` — a user's membership in a channel.
* `BotSpec` — what the platform needs to create a bot account.

Each of them has a JSON form, `toJson` and `ofJson?`.
-/

set_option autoImplicit false
namespace SealedChannel

/-- An account of the chat platform. -/
structure User where
  id : String
  username : String
  email : String
  isBot : Bool
  deriving DecidableEq, Repr, Inhabited

namespace User

/-- A user as a JSON value. -/
def toJson (u : User) : Json :=
  .record [("id", .ofText u.id), ("username", .ofText u.username), ("email", .ofText u.email),
    ("is_bot", .bool u.isBot)]

/-- The user of a JSON value; an account is no bot unless the value says so. -/
def ofJson? (value : Json) : Option User := do
  let r ← Json.Record.ofJson? ["id", "username", "email", "is_bot"] value
  let id ← r.required "id" Json.text?
  let username ← r.required "username" Json.text?
  let email ← r.required "email" Json.text?
  let isBot ← r.defaulted "is_bot" false Json.bool?
  some ⟨id, username, email, isBot⟩

end User

/-- A user's membership in a channel. -/
structure ChannelMember where
  channelId : String
  userId : String
  deriving DecidableEq, Repr, Inhabited

namespace ChannelMember

/-- A membership as a JSON value. -/
def toJson (m : ChannelMember) : Json :=
  .record [("channel_id", .ofText m.channelId), ("user_id", .ofText m.userId)]

/-- The membership of a JSON value. -/
def ofJson? (value : Json) : Option ChannelMember := do
  let r ← Json.Record.ofJson? ["channel_id", "user_id"] value
  let channelId ← r.required "channel_id" Json.text?
  let userId ← r.required "user_id" Json.text?
  some ⟨channelId, userId⟩

end ChannelMember

/-- What the platform needs to create a bot account. -/
structure BotSpec where
  username : String
  displayName : String
  description : String
  deriving DecidableEq, Repr, Inhabited

namespace BotSpec

/-- A bot as a JSON value. -/
def toJson (b : BotSpec) : Json :=
  .record [("username", .ofText b.username), ("display_name", .ofText b.displayName),
    ("description", .ofText b.description)]

/-- The bot of a JSON value. -/
def ofJson? (value : Json) : Option BotSpec := do
  let r ← Json.Record.ofJson? ["username", "display_name", "description"] value
  let username ← r.required "username" Json.text?
  let displayName ← r.required "display_name" Json.text?
  let description ← r.required "description" Json.text?
  some ⟨username, displayName, description⟩

end BotSpec

end SealedChannel
