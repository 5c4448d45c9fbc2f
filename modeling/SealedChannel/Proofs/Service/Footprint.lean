import SealedChannel.Proofs.Program.Footprint
import SealedChannel.Proofs.Service.ChannelMode
import SealedChannel.Service.Command
import SealedChannel.Service.Keys
import SealedChannel.Service.PostFilter

/-!
# What the service can reach

Every operation of the service reads and writes keys made from the ids that it is given, whatever
these ids look like.  Backups are read for the user of the operation alone, while key pairs and
modes may be read for anybody.

## What is here

* `Modes.within_get`, `Modes.within_setIfDifferent` — the mode of one channel.
* `PublicKeys.within_get` and the others — key pairs of any users.
* `Service.within_pushKeys`, `Service.within_mailBackup`, `Service.within_execute` — the operations
  with the backup of their user.
* `Service.within_changeMode` — the operation that publishes a mode.
* `Service.within_channelMode` and the others — the operations that only read.
-/

set_option autoImplicit false
namespace SealedChannel

open Program

variable {r : Reach}

/-! ## Stored values -/

namespace Modes

variable (m : Modes) {channelId : String} {mode : Mode}

theorem within_get (hread : r.reads (Key.mode channelId)) : (m.get channelId).Within r := by
  refine .bind (.run_get hread) fun answer => ?_
  cases answer <;> exact .pure _

theorem within_replace (hread : r.reads (Key.mode channelId))
    (hwrite : r.writes (Key.mode channelId) (some mode.encode)) :
    (m.replace channelId mode).run.Within r := by
  refine .run_bind (.run_get hread) fun raw => ?_
  split
  · exact .run_pure false
  · exact .run_bind (.run_write rfl rfl hwrite) fun _ => .run_pure true

theorem within_exchange (hread : r.reads (Key.mode channelId))
    (hwrite : r.writes (Key.mode channelId) (some mode.encode)) (attempts : Nat) :
    (m.exchange channelId mode attempts).run.Within r := by
  induction attempts with
  | zero => exact .run_throw _
  | succ attempts ih =>
    refine .run_bind (.run_get hread) fun raw => ?_
    split
    · exact .run_pure false
    · refine .run_bind (.run_compareAndSet hread hwrite) fun swapped => ?_
      cases swapped with
      | true => exact .run_pure true
      | false => exact ih

/-- A change of a mode reads and writes the key of the mode of its channel. -/
theorem within_setIfDifferent (hread : r.reads (Key.mode channelId))
    (hwrite : r.writes (Key.mode channelId) (some mode.encode)) :
    (m.setIfDifferent channelId mode).run.Within r := by
  refine .locked ?_
  split
  · exact m.within_exchange hread hwrite rounds
  · exact m.within_replace hread hwrite

end Modes

namespace PublicKeys

variable (limit : Duration)

theorem within_set {userId : String} {pair : KeyPair}
    (hwrite : r.writes (Key.pubkey userId) (some pair.encode)) :
    (set limit userId pair).run.Within r :=
  .run_wrap (.run_write rfl rfl hwrite)

theorem within_get (diagnose : Json.Diagnosis) {userId : String}
    (hread : r.reads (Key.pubkey userId)) : (get diagnose limit userId).run.Within r := by
  refine .run_bind (.run_wrap (.run_get hread)) fun raw => ?_
  cases raw with
  | none => exact .run_pure none
  | some bytes =>
    dsimp only
    split
    · exact .run_pure _
    · exact .run_throw _

theorem within_getManyFrom (diagnose : Json.Diagnosis) {userIds : List String}
    (hreads : ∀ userId ∈ userIds, r.reads (Key.pubkey userId)) (found : Table (Option KeyPair)) :
    (getManyFrom diagnose limit found userIds).run.Within r := by
  induction userIds generalizing found with
  | nil => exact .run_pure found
  | cons userId rest ih =>
    obtain ⟨hread, hrest⟩ := List.forall_mem_cons.1 hreads
    exact .run_bind (within_get limit diagnose hread) fun pair => ih hrest _

variable (hreads : ∀ userId, r.reads (Key.pubkey userId))
include hreads

theorem within_without (userIds : List String) : (without limit userIds).run.Within r := by
  induction userIds with
  | nil => exact .run_pure []
  | cons userId rest ih =>
    refine .run_bind (.run_bind (.run_get (hreads userId)) fun _ => .run_pure _) fun present => ?_
    exact .run_bind ih fun others => .run_pure _

/-- Who has no key pair is asked for every member that the platform lists. -/
theorem within_membersWithout (channelId : String) :
    (membersWithout limit channelId).run.Within r := by
  refine .run_bind (.run_wrap (.run_host rfl)) fun perPage => ?_
  exact .run_bind (.run_wrap (.run_host rfl)) fun members =>
    .run_wrap (within_without limit hreads _)

end PublicKeys

namespace Backups

variable (limit : Duration) {userId : String}

theorem within_store {backup : String}
    (hwrite : r.writes (Key.backup userId) (some (.ofText backup))) :
    (store limit userId backup).run.Within r :=
  .run_write rfl rfl hwrite

theorem within_get (hread : r.reads (Key.backup userId)) : (get limit userId).run.Within r :=
  .run_bind (.run_get hread) fun _ => .run_pure _

theorem within_delete (hwrite : r.writes (Key.backup userId) none) :
    (delete limit userId).run.Within r :=
  .run_write rfl rfl hwrite

end Backups

/-! ## The operations of the service -/

namespace Service

variable (s : Service)

theorem within_ask {c : HostCall} (hc : (Call.host c).event? = none) : (ask c).run.Within r :=
  .run_wrap (.run_host hc)

theorem within_activate : s.activate.run.Within r :=
  .run_bind (within_ask rfl) fun _ => .run_bind (within_ask rfl) fun _ => .run_pure _

theorem within_requireMember (userId channelId : String) :
    (requireMember userId channelId).run.Within r :=
  .run_bind (.run_wrap (.run_host rfl)) fun _ => .run_pure ()

theorem within_channelMode (userId : String) {channelId : String}
    (hread : r.reads (Key.mode channelId)) : (s.channelMode userId channelId).run.Within r :=
  .run_bind (within_requireMember userId channelId) fun _ =>
    .run_lift (s.modes.within_get hread)

theorem within_mentions (userIds : List String) : (mentions userIds).run.Within r := by
  induction userIds with
  | nil => exact .run_pure ""
  | cons userId rest ih =>
    exact .run_bind (within_ask rfl) fun user => .run_bind ih fun others => .run_pure _

section Announcements

variable (hreads : ∀ userId, r.reads (Key.pubkey userId))
include hreads

theorem within_missingKeysWarning (channelId : String) :
    (s.missingKeysWarning channelId).run.Within r := by
  refine .run_bind (.run_wrap (PublicKeys.within_membersWithout _ hreads channelId))
    fun missing => ?_
  split
  · exact .run_pure ""
  · exact .run_bind (within_mentions missing) fun mentioned => .run_pure _

theorem within_announcement (userId channelId : String) (mode : Mode) :
    (s.announcement userId channelId mode).run.Within r := by
  refine .run_bind (within_ask rfl) fun user => ?_
  cases mode with
  | plain => exact .run_pure _
  | p2p =>
    exact .run_bind (s.within_missingKeysWarning hreads channelId) fun warning => .run_pure _

/-- What follows the event of a mode that was switched. -/
theorem within_announcementPost (userId channelId : String) (mode : Mode) :
    (do
      let message ← s.announcement userId channelId mode
      let _ ← ask (.createPost (s.botPost channelId message))
      return true : Operation ServiceError Bool).run.Within r := by
  refine .run_bind (s.within_announcement hreads userId channelId mode) fun message => ?_
  exact .run_bind (within_ask rfl) fun _ => .run_pure true

end Announcements

theorem within_noticeUnchanged (userId channelId : String) (mode : Mode) :
    (s.noticeUnchanged userId channelId mode).run.Within r :=
  .run_bind (.run_attempt (.run_host rfl)) fun _ => .run_pure ()

/-- Telling others of a mode publishes an event only if the mode was switched. -/
theorem within_announceMode (userId : String) {channelId : String} {mode : Mode} {changed : Bool}
    (hreads : ∀ userId, r.reads (Key.pubkey userId))
    (hpublish : changed = true → r.publishes (modeEvent channelId mode)) :
    (s.announceMode userId channelId mode changed).run.Within r := by
  rw [announceMode]
  split
  · rename_i hchanged
    exact .run_bind (.run_attempt (.run_publish (hpublish hchanged))) fun _ =>
      s.within_announcementPost hreads userId channelId mode
  · exact .run_bind (s.within_noticeUnchanged userId channelId mode) fun _ => .run_pure false

/-- Telling others of a mode writes nothing. -/
theorem writes_announceMode (userId channelId : String) (mode : Mode) (changed : Bool) :
    (s.announceMode userId channelId mode changed).run.Writes fun _ _ => False :=
  (s.within_announceMode (r := ⟨fun _ => True, fun _ _ => False, fun _ => True⟩) userId
    (fun _ => trivial) fun _ => trivial).writes

theorem within_switchMode (modes : Modes) (userId : String) {channelId : String} {mode : Mode}
    (hread : r.reads (Key.mode channelId))
    (hwrite : r.writes (Key.mode channelId) (some mode.encode)) :
    (switchMode modes userId channelId mode).run.Within r :=
  .run_bind (within_requireMember userId channelId) fun _ =>
    .run_wrap (modes.within_setIfDifferent hread hwrite)

/-- A change of a mode reads and writes the key of the mode of its channel, reads key pairs, and
publishes the mode. -/
theorem within_changeMode (userId : String) {channelId : String} {mode : Mode}
    (hread : r.reads (Key.mode channelId))
    (hwrite : r.writes (Key.mode channelId) (some mode.encode))
    (hreads : ∀ userId, r.reads (Key.pubkey userId))
    (hpublish : r.publishes (modeEvent channelId mode)) :
    (s.changeMode userId channelId mode).run.Within r := by
  rw [changeMode_eq]
  exact .run_bind (within_switchMode s.modes userId hread hwrite) fun changed =>
    s.within_announceMode userId hreads fun _ => hpublish

theorem within_mailBackup {userId : String} (hread : r.reads (Key.backup userId)) :
    (s.mailBackup userId).run.Within r := by
  refine .run_bind (within_ask rfl) fun user => ?_
  refine .run_bind (.run_wrap (Backups.within_get _ hread)) fun backup => ?_
  cases backup with
  | none => exact .run_throw _
  | some backup => exact .run_wrap (.run_host rfl)

/-- A push writes the key pair, which has passed the check, writes or removes the backup and reads
it, and publishes that there is a new key pair. -/
theorem within_pushKeys {userId : String} {push : KeyPush}
    (hpubkey : push.pair.isValid = true → r.writes (Key.pubkey userId) (some push.pair.encode))
    (hbackup : ∀ value, r.writes (Key.backup userId) value)
    (hread : r.reads (Key.backup userId)) (hpublish : r.publishes (newKeyEvent userId)) :
    (s.pushKeys userId push).run.Within r := by
  rw [pushKeys]
  cases hcheck : push.pair.check with
  | error cause => exact .run_throw _
  | ok points =>
    have hvalid : push.pair.isValid = true := by rw [KeyPair.isValid, hcheck]; rfl
    refine .run_bind (.run_wrap (PublicKeys.within_set _ (hpubkey hvalid))) fun _ => ?_
    refine .run_bind (.run_attempt (.run_publish hpublish)) fun _ => ?_
    cases push.backup with
    | none => exact .run_wrap (Backups.within_delete _ (hbackup none))
    | some backup =>
      refine .run_bind (.run_wrap (Backups.within_store _ (hbackup _))) fun _ => ?_
      exact s.within_mailBackup hread

theorem within_keysOf {userIds : List String}
    (hreads : ∀ userId ∈ userIds, r.reads (Key.pubkey userId)) :
    (s.keysOf userIds).run.Within r :=
  .run_wrap (PublicKeys.within_getManyFrom _ _ hreads _)

theorem within_lookup (address : String) (pairs : List (String × String)) :
    (KeyServer.Client.lookup address pairs).run.Within r := by
  have hfetch : r.Covers (.fetch (KeyServer.lookupTarget address pairs)) :=
    Reach.covers_of_none rfl rfl rfl
  refine .run_bind (.run_lift (.call hfetch fun answer => .pure answer)) fun answer => ?_
  cases answer with
  | error reason => exact .run_throw _
  | ok reply =>
    dsimp only
    split
    · exact .run_pure _
    · split
      · exact .run_pure _
      · exact .run_throw _

theorem within_gpgKeyOf (userId : String) : (s.gpgKeyOf userId).run.Within r := by
  refine .run_bind (within_ask rfl) fun user => .run_wrap (.run_bind ?_ fun keyId => ?_)
  · refine .run_bind (.run_bind (within_lookup _ _) fun body => ?_) fun listings => .pure _
    cases body <;> exact .run_pure _
  · refine .run_bind (within_lookup _ _) fun body => ?_
    cases body with
    | none => exact .run_throw _
    | some body => exact .pure _

theorem within_reply (call : Invocation) (text : String) :
    (s.reply call text).run.Within r :=
  .run_bind (within_ask rfl) fun _ => .run_pure ()

theorem within_executeWord {call : Invocation} (hread : r.reads (Key.backup call.userId))
    (word : String) : (s.executeWord call word).run.Within r := by
  rw [executeWord]
  split
  · exact s.within_reply call helpText
  · split
    · refine .run_bind (.run_wrap (Backups.within_get _ hread)) fun backup => ?_
      cases backup with
      | none => exact .run_throw _
      | some backup => exact s.within_reply call backup
    · exact .run_throw _

/-- A slash command reads the backup of its user. -/
theorem within_execute {call : Invocation} (hread : r.reads (Key.backup call.userId)) :
    (s.execute call).run.Within r := by
  rw [execute]
  split
  · exact s.within_executeWord hread _
  · exact s.within_executeWord hread "help"
  · exact .run_pure ()

theorem within_judge {post : Post} (hread : r.reads (Key.mode post.channelId)) :
    (s.judge post).Within r := by
  rw [judge]
  split
  · exact .pure _
  · refine .bind (s.modes.within_get hread) fun mode => ?_
    cases mode with
    | plain => exact .pure _
    | p2p =>
      dsimp only
      split
      · refine .bind (.run_host rfl) fun answer => ?_
        cases answer with
        | ok author => dsimp only; split <;> exact .pure _
        | error e => exact .pure _
      · exact .pure _

end Service

end SealedChannel
