import SealedChannel.Chat.Event
import SealedChannel.Chat.Post
import SealedChannel.Chat.SlashCommand
import SealedChannel.Chat.User

/-!
# Calls to the chat platform

Users, channels, posts, mail and events belong to the chat platform.

## What is here

* `HostError` — why a call failed, with its text in `HostError.message`.
* `HostCall` — the calls, with the type of their answers in `HostCall.Answer`.
* `HostMethod` — the kinds of call, by which faults are put in force.
-/

set_option autoImplicit false
namespace SealedChannel

/-- Why a call to the platform failed. -/
inductive HostError where
  /-- What was asked for does not exist. -/
  | notFound (subject : String)
  /-- The platform refused. -/
  | forbidden (reason : String)
  /-- The call went wrong. -/
  | failed (reason : String)
  deriving DecidableEq, Repr

/-- The text of an error. -/
def HostError.message : HostError → String
  | .notFound subject => "not found: " ++ subject
  | .forbidden reason => "forbidden: " ++ reason
  | .failed reason => "host call failed: " ++ reason

/-- A call to the platform. -/
inductive HostCall where
  /-- The account of a user. -/
  | getUser (userId : String)
  /-- A user's membership in a channel; fails for a user who is no member. -/
  | getChannelMember (channelId userId : String)
  /-- One page of the members of a channel. -/
  | getChannelMembers (channelId : String) (page perPage : Nat)
  /-- The largest number of users in a team, a bound for a list of members. -/
  | maxUsersPerTeam
  /-- Sends a mail with an HTML body. -/
  | sendMail (recipient subject body : String)
  /-- Creates a post. -/
  | createPost (post : Post)
  /-- Creates a post that one user sees. -/
  | sendEphemeralPost (userId : String) (post : Post)
  /-- Publishes a real-time event. -/
  | publishEvent (event : Event)
  /-- Announces a slash command. -/
  | registerCommand (command : SlashCommand)
  /-- Creates a bot account if there is none yet; answers the id of its user. -/
  | ensureBot (bot : BotSpec)

/-- What a call answers if it succeeds. -/
@[reducible]
def HostCall.Answer : HostCall → Type
  | .getUser _ => User
  | .getChannelMember _ _ => ChannelMember
  | .getChannelMembers _ _ _ => List ChannelMember
  | .maxUsersPerTeam => Nat
  | .sendMail _ _ _ => Unit
  | .createPost _ => Post
  | .sendEphemeralPost _ _ => Post
  | .publishEvent _ => Unit
  | .registerCommand _ => Unit
  | .ensureBot _ => String

/-- The kinds of call. -/
inductive HostMethod where
  | getUser
  | getChannelMember
  | getChannelMembers
  | maxUsersPerTeam
  | sendMail
  | createPost
  | sendEphemeralPost
  | publishEvent
  | registerCommand
  | ensureBot
  deriving DecidableEq, Repr

/-- The kind of a call. -/
def HostCall.method : HostCall → HostMethod
  | .getUser _ => .getUser
  | .getChannelMember _ _ => .getChannelMember
  | .getChannelMembers _ _ _ => .getChannelMembers
  | .maxUsersPerTeam => .maxUsersPerTeam
  | .sendMail _ _ _ => .sendMail
  | .createPost _ => .createPost
  | .sendEphemeralPost _ _ => .sendEphemeralPost
  | .publishEvent _ => .publishEvent
  | .registerCommand _ => .registerCommand
  | .ensureBot _ => .ensureBot

end SealedChannel
