import SealedChannel.Chat.HostCall
import SealedChannel.Storage.Table

/-!
# The chat platform

A platform is described by its accounts and channels, by the faults in force, and by what it has
been asked to deliver so far.

## What is here

* `Host` — the state of the platform.
* `Fault` — what may go wrong with a kind of call: it fails, or the platform crashes within it.
* `Host.perform` — a call that meets no fault.
* `Host.call` — a call, `none` for a crash.
-/

set_option autoImplicit false
namespace SealedChannel

/-- What happens to every call of a kind. -/
inductive Fault where
  /-- The call fails. -/
  | refuse (error : HostError)
  /-- The platform crashes within the call. -/
  | crash
  deriving DecidableEq, Repr

/-- A mail that was sent. -/
structure Mail where
  recipient : String
  subject : String
  body : String
  deriving DecidableEq, Repr

/-- The state of the platform. -/
structure Host where
  users : Table User
  /-- Accounts that stand in front of those in `users`. -/
  overrides : Table User
  /-- The members of each channel, in the order in which they joined. -/
  members : Table (List String)
  teamLimit : Nat
  refuseMail : Bool
  refusePosts : Bool
  faults : List (HostMethod × Fault)
  /-- The number of the next post. -/
  nextPost : Nat
  mails : List Mail
  posts : List Post
  /-- Posts that one user sees, with that user. -/
  ephemeral : List (String × Post)
  events : List Event
  commands : List SlashCommand
  bots : List BotSpec
  deriving Repr

namespace Host

/-- A platform without accounts, channels or faults. -/
def new : Host :=
  ⟨.empty, .empty, .empty, 50, false, false, [], 1, [], [], [], [], [], []⟩

instance : Inhabited Host :=
  ⟨new⟩

/-! ## Arrangements -/

/-- Creates an account with a mail address made of its name. -/
def addUser (h : Host) (id username : String) : User × Host :=
  let user : User := ⟨id, username, username ++ "@example.com", false⟩
  (user, { h with users := h.users.insert id user })

/-- Puts an account in front of those that exist. -/
def putUser (h : Host) (user : User) : Host :=
  { h with overrides := h.overrides.insert user.id user }

/-- The members of a channel. -/
def membersOf (h : Host) (channelId : String) : List String :=
  (h.members.get? channelId).getD []

/-- Adds a member to a channel. -/
def addMember (h : Host) (channelId userId : String) : Host :=
  { h with members := h.members.insert channelId (h.membersOf channelId ++ [userId]) }

/-- Puts a fault in force for a kind of call, or lifts it. -/
def setFault (h : Host) (method : HostMethod) (fault : Option Fault) : Host :=
  let others := h.faults.filter fun entry => entry.1 != method
  { h with faults := (fault.map fun fault => (method, fault)).toList ++ others }

/-! ## Calls -/

/-- The account of a user. -/
def user? (h : Host) (id : String) : Option User :=
  (h.overrides.get? id).or (h.users.get? id)

/-- A post with the next id. -/
def assignId (h : Host) (post : Post) : Post × Host :=
  ({ post with id := "post" ++ toString h.nextPost }, { h with nextPost := h.nextPost + 1 })

/-- The number of the first member on a page, counted in 64 bits. -/
def firstOfPage (page perPage : Nat) : Nat :=
  page * perPage % UInt64.size

/-- A call that meets no fault of its kind. -/
def perform (h : Host) : (c : HostCall) → Except HostError c.Answer × Host
  | .getUser id =>
    match h.user? id with
    | some user => (.ok user, h)
    | none => (.error (.notFound ("user " ++ id)), h)
  | .getChannelMember channelId userId =>
    if (h.membersOf channelId).contains userId then (.ok (ChannelMember.mk channelId userId), h)
    else (.error (.notFound ("member " ++ userId ++ " of channel " ++ channelId)), h)
  | .getChannelMembers channelId page perPage =>
    let listed := ((h.membersOf channelId).drop (firstOfPage page perPage)).take perPage
    (.ok (listed.map (ChannelMember.mk channelId)), h)
  | .maxUsersPerTeam => (.ok h.teamLimit, h)
  | .sendMail recipient subject body =>
    if h.refuseMail then (.error (.failed "mail delivery failed"), h)
    else (.ok (), { h with mails := h.mails ++ [⟨recipient, subject, body⟩] })
  | .createPost post =>
    if h.refusePosts then (.error (.failed "post creation failed"), h)
    else
      let (post, h) := h.assignId post
      (.ok post, { h with posts := h.posts ++ [post] })
  | .sendEphemeralPost userId post =>
    let (post, h) := h.assignId post
    (.ok post, { h with ephemeral := h.ephemeral ++ [(userId, post)] })
  | .publishEvent event => (.ok (), { h with events := h.events ++ [event] })
  | .registerCommand command => (.ok (), { h with commands := h.commands ++ [command] })
  | .ensureBot bot =>
    let id := "bot-" ++ bot.username
    let users :=
      match h.users.get? id with
      | some _ => h.users
      | none => h.users.insert id ⟨id, bot.username, "", true⟩
    (.ok id, { h with users := users, bots := h.bots ++ [bot] })

/-- A call, `none` if the platform crashes within it. -/
def call (h : Host) (c : HostCall) : Option (Except HostError c.Answer × Host) :=
  match h.faults.lookup c.method with
  | some .crash => none
  | some (.refuse error) => some (.error error, h)
  | none => some (h.perform c)

end Host

end SealedChannel
