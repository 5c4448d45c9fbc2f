import SealedChannel.Chat.Event
import SealedChannel.Chat.Post
import SealedChannel.Chat.SlashCommand
import SealedChannel.Chat.User
import SealedChannel.Proofs.Json.WireForm
import SealedChannel.Proofs.KeyPair
import SealedChannel.Service.Keys

/-!
# The forms of what is exchanged

Posts, accounts, memberships, audiences, bots, slash commands, key pairs and pushes are exchanged as
JSON objects.  Whatever texts they hold, each of them is read back from its text.

## What is here

* `Post.wire`, `User.wire`, `ChannelMember.wire`, `Broadcast.wire`, `BotSpec.wire`,
  `SlashCommand.wire`, `KeyPair.wire`, `KeyPush.wire` — the names and the defaults of each of them.
* `Post.readsBack_wire` and its companions — each of them is read back.
* `readsBack_wires` — all of them are.
-/

set_option autoImplicit false
namespace SealedChannel

open Json (Record WireForm)

/-! ## Posts -/

namespace Post

/-- The form of a post: id and type may be left out if they are empty. -/
def wire : WireForm Post where
  toJson := toJson
  ofJson? := ofJson?
  names := ["id", "user_id", "channel_id", "message", "type"]
  defaults := [("id", .ofText ""), ("type", .ofText "")]

theorem readsBack_wire : wire.ReadsBack := by
  refine WireForm.readsBack (fun value => rfl)
    (fun p => [("id", .ofText p.id), ("user_id", .ofText p.userId),
      ("channel_id", .ofText p.channelId), ("message", .ofText p.message),
      ("type", .ofText p.kind)])
    (fun p => rfl) (fun p => rfl) (by decide) (fun p => by simp) fun p kept h hnodup => ?_
  have hid : (Record.named kept).defaulted "id" "" Json.text? = some p.id :=
    h.defaulted hnodup (by simp) (by simp [wire]) (Json.text?_ofText p.id)
  have huser : (Record.named kept).required "user_id" Json.text? = some p.userId :=
    h.text hnodup (by simp) (by decide)
  have hchannel : (Record.named kept).required "channel_id" Json.text? = some p.channelId :=
    h.text hnodup (by simp) (by decide)
  have hmessage : (Record.named kept).required "message" Json.text? = some p.message :=
    h.text hnodup (by simp) (by decide)
  have hkind : (Record.named kept).defaulted "type" "" Json.text? = some p.kind :=
    h.defaulted hnodup (by simp) (by simp [wire]) (Json.text?_ofText p.kind)
  simp only [Option.bind_eq_bind, Option.bind_some, hid, huser, hchannel, hmessage, hkind]

end Post

/-! ## Accounts -/

namespace User

/-- The form of an account: that it is no bot may be left out. -/
def wire : WireForm User where
  toJson := toJson
  ofJson? := ofJson?
  names := ["id", "username", "email", "is_bot"]
  defaults := [("is_bot", .bool false)]

theorem readsBack_wire : wire.ReadsBack := by
  refine WireForm.readsBack (fun value => rfl)
    (fun u => [("id", .ofText u.id), ("username", .ofText u.username), ("email", .ofText u.email),
      ("is_bot", .bool u.isBot)])
    (fun u => rfl) (fun u => rfl) (by decide) (fun u => by simp) fun u kept h hnodup => ?_
  have hid : (Record.named kept).required "id" Json.text? = some u.id :=
    h.text hnodup (by simp) (by decide)
  have husername : (Record.named kept).required "username" Json.text? = some u.username :=
    h.text hnodup (by simp) (by decide)
  have hemail : (Record.named kept).required "email" Json.text? = some u.email :=
    h.text hnodup (by simp) (by decide)
  have hisBot : (Record.named kept).defaulted "is_bot" false Json.bool? = some u.isBot :=
    h.defaulted hnodup (by simp) (by simp [wire]) (Json.bool?_bool u.isBot)
  simp only [Option.bind_eq_bind, Option.bind_some, hid, husername, hemail, hisBot]

end User

namespace ChannelMember

/-- The form of a membership. -/
def wire : WireForm ChannelMember where
  toJson := toJson
  ofJson? := ofJson?
  names := ["channel_id", "user_id"]
  defaults := []

theorem readsBack_wire : wire.ReadsBack := by
  refine WireForm.readsBack (fun value => rfl)
    (fun m => [("channel_id", .ofText m.channelId), ("user_id", .ofText m.userId)])
    (fun m => rfl) (fun m => rfl) (by decide) (fun m => by simp) fun m kept h hnodup => ?_
  have hchannel : (Record.named kept).required "channel_id" Json.text? = some m.channelId :=
    h.text hnodup (by simp) (by decide)
  have huser : (Record.named kept).required "user_id" Json.text? = some m.userId :=
    h.text hnodup (by simp) (by decide)
  simp only [Option.bind_eq_bind, Option.bind_some, hchannel, huser]

end ChannelMember

namespace BotSpec

/-- The form of a bot. -/
def wire : WireForm BotSpec where
  toJson := toJson
  ofJson? := ofJson?
  names := ["username", "display_name", "description"]
  defaults := []

theorem readsBack_wire : wire.ReadsBack := by
  refine WireForm.readsBack (fun value => rfl)
    (fun b => [("username", .ofText b.username), ("display_name", .ofText b.displayName),
      ("description", .ofText b.description)])
    (fun b => rfl) (fun b => rfl) (by decide) (fun b => by simp) fun b kept h hnodup => ?_
  have husername : (Record.named kept).required "username" Json.text? = some b.username :=
    h.text hnodup (by simp) (by decide)
  have hdisplay : (Record.named kept).required "display_name" Json.text? = some b.displayName :=
    h.text hnodup (by simp) (by decide)
  have hdescription : (Record.named kept).required "description" Json.text? = some b.description :=
    h.text hnodup (by simp) (by decide)
  simp only [Option.bind_eq_bind, Option.bind_some, husername, hdisplay, hdescription]

end BotSpec

/-! ## Audiences and slash commands -/

namespace Broadcast

/-- The form of an audience: whatever does not narrow it may be left out. -/
def wire : WireForm Broadcast where
  toJson := toJson
  ofJson? := ofJson?
  names := ["channel_id", "user_id", "omit_users"]
  defaults := [("channel_id", .null), ("user_id", .null), ("omit_users", .array [])]

theorem readsBack_wire : wire.ReadsBack := by
  refine WireForm.readsBack (fun value => rfl)
    (fun b => [("channel_id", .ofOption .ofText b.channelId),
      ("user_id", .ofOption .ofText b.userId), ("omit_users", .ofList .ofText b.omitUsers)])
    (fun b => rfl) (fun b => rfl) (by decide)
    (fun b => by simp [Json.wellFormed_ofOption, Json.wellFormed_ofList]) fun b kept h hnodup => ?_
  have hchannel : (Record.named kept).optional "channel_id" Json.text? = some b.channelId :=
    h.optional hnodup (by simp) (by simp [wire]) (Json.nullable?_ofText b.channelId)
  have huser : (Record.named kept).optional "user_id" Json.text? = some b.userId :=
    h.optional hnodup (by simp) (by simp [wire]) (Json.nullable?_ofText b.userId)
  have homit : (Record.named kept).defaulted "omit_users" [] (Json.list? Json.text?)
      = some b.omitUsers :=
    h.defaulted hnodup (by simp) (by simp [wire, Json.list?])
      (Json.list?_ofList Json.text?_ofText b.omitUsers)
  simp only [Option.bind_eq_bind, Option.bind_some, hchannel, huser, homit]

end Broadcast

namespace SlashCommand

/-- The form of a slash command. -/
def wire : WireForm SlashCommand where
  toJson := toJson
  ofJson? := ofJson?
  names := ["trigger", "display_name", "description", "auto_complete", "auto_complete_desc",
    "auto_complete_hint"]
  defaults := []

theorem readsBack_wire : wire.ReadsBack := by
  refine WireForm.readsBack (fun value => rfl)
    (fun c => [("trigger", .ofText c.trigger), ("display_name", .ofText c.displayName),
      ("description", .ofText c.description), ("auto_complete", .bool c.autoComplete),
      ("auto_complete_desc", .ofText c.autoCompleteDesc),
      ("auto_complete_hint", .ofText c.autoCompleteHint)])
    (fun c => rfl) (fun c => rfl) (by decide) (fun c => by simp) fun c kept h hnodup => ?_
  have htrigger : (Record.named kept).required "trigger" Json.text? = some c.trigger :=
    h.text hnodup (by simp) (by decide)
  have hdisplay : (Record.named kept).required "display_name" Json.text? = some c.displayName :=
    h.text hnodup (by simp) (by decide)
  have hdescription : (Record.named kept).required "description" Json.text? = some c.description :=
    h.text hnodup (by simp) (by decide)
  have hcomplete : (Record.named kept).required "auto_complete" Json.bool? = some c.autoComplete :=
    h.required hnodup (by simp) (by decide) (Json.bool?_bool c.autoComplete)
  have hdesc :
      (Record.named kept).required "auto_complete_desc" Json.text? = some c.autoCompleteDesc :=
    h.text hnodup (by simp) (by decide)
  have hhint :
      (Record.named kept).required "auto_complete_hint" Json.text? = some c.autoCompleteHint :=
    h.text hnodup (by simp) (by decide)
  simp only [Option.bind_eq_bind, Option.bind_some, htrigger, hdisplay, hdescription, hcomplete,
    hdesc, hhint]

end SlashCommand

/-! ## Key pairs and pushes -/

namespace KeyPair

/-- The form of a key pair: an empty byte string may be left out. -/
def wire : WireForm KeyPair where
  toJson := toJson
  ofJson? := ofJson?
  names := ["encr", "sign"]
  defaults := [("encr", .ofText ""), ("sign", .ofText "")]

theorem readsBack_wire : wire.ReadsBack := by
  refine WireForm.readsBack (fun value => rfl)
    (fun pair => [("encr", .ofText (Base64.encode pair.encr)),
      ("sign", .ofText (Base64.encode pair.sign))])
    (fun pair => rfl) (fun pair => rfl) (by decide) (fun pair => by simp)
    fun pair kept h hnodup => ?_
  have hempty : keyOfJson? (.ofText "") = some [] := keyOfJson?_ofText []
  have hencr : (Record.named kept).defaulted "encr" [] keyOfJson? = some pair.encr :=
    h.defaulted hnodup (by simp) (by simp [wire, hempty]) (keyOfJson?_ofText pair.encr)
  have hsign : (Record.named kept).defaulted "sign" [] keyOfJson? = some pair.sign :=
    h.defaulted hnodup (by simp) (by simp [wire, hempty]) (keyOfJson?_ofText pair.sign)
  simp only [Option.bind_eq_bind, Option.bind_some, hencr, hsign]

end KeyPair

namespace KeyPush

/-- The form of a push: a missing backup may be left out. -/
def wire : WireForm KeyPush where
  toJson := toJson
  ofJson? := ofJson?
  names := ["pubkey", "backupGPG"]
  defaults := [("backupGPG", .null)]

theorem readsBack_wire : wire.ReadsBack := by
  refine WireForm.readsBack (fun value => rfl)
    (fun push => [("pubkey", push.pair.toJson), ("backupGPG", .ofOption .ofText push.backup)])
    (fun push => rfl) (fun push => rfl) (by decide)
    (fun push => by simp [Json.wellFormed_ofOption, KeyPair.wellFormed_toJson])
    fun push kept h hnodup => ?_
  have hpair : (Record.named kept).required "pubkey" KeyPair.ofJson? = some push.pair :=
    h.required hnodup (by simp) (by decide) (KeyPair.ofJson?_toJson push.pair)
  have hbackup : (Record.named kept).defaulted "backupGPG" none (Json.nullable? Json.text?)
      = some push.backup :=
    h.defaulted hnodup (by simp) (by simp [wire, Json.nullable?])
      (Json.nullable?_ofText push.backup)
  simp only [Option.bind_eq_bind, Option.bind_some, hpair, hbackup]

end KeyPush

/-! ## All of them -/

/-- **Forms there and back.**  Whatever texts they hold, posts, accounts, memberships, audiences,
bots, slash commands, key pairs and pushes are read back from their texts, and from the text of any
members that say as much. -/
theorem readsBack_wires :
    Post.wire.ReadsBack ∧ User.wire.ReadsBack ∧ ChannelMember.wire.ReadsBack ∧
      Broadcast.wire.ReadsBack ∧ BotSpec.wire.ReadsBack ∧ SlashCommand.wire.ReadsBack ∧
      KeyPair.wire.ReadsBack ∧ KeyPush.wire.ReadsBack :=
  ⟨Post.readsBack_wire, User.readsBack_wire, ChannelMember.readsBack_wire,
    Broadcast.readsBack_wire, BotSpec.readsBack_wire, SlashCommand.readsBack_wire,
    KeyPair.readsBack_wire, KeyPush.readsBack_wire⟩

end SealedChannel
