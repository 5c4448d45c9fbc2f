import SealedChannel.Proofs.Program.Timeout
import SealedChannel.Proofs.Service.ChannelMode
import SealedChannel.Service.Command
import SealedChannel.Service.Keys
import SealedChannel.Service.PostFilter

/-!
# The service on a slow store

Every operation makes all its store calls under one limit and ends with the first one that times
out.  It comes to the error of that call then, seen as its other errors from the store are; only
where a mode is read does the call count as one that found no encryption.  As nothing is delivered
before the first store call but the help text, a store that is too slow leaves no trace.

## What is here

* `HostCall.IsQuiet`, `Host.OnlyHelps` — calls that deliver nothing but the help text, and what they
  leave of the platform.
* `Modes.limited_get`, `Service.limited_pushKeys` and the others — every store call of an operation
  is made under its limit.
* `Modes.stops_get`, `Service.stops_pushKeys` and the others — what an operation comes to if its
  first store call times out.
* `Timed` — the operations with their limits, and what they come to if the store is too slow.
* `Program.Delayed` — what becomes of a run if the store is too slow.
* `Timed.unaffected_or_delayed` — a slow store makes no difference to an operation until it exceeds
  the limit, and then the operation does nothing.
-/

set_option autoImplicit false
namespace SealedChannel

open Program

variable {limit : Duration}

/-! ## Quiet calls -/

/-- A call to the platform delivers nothing but the help text. -/
def HostCall.IsQuiet : HostCall → Prop
  | .sendMail _ _ _ | .createPost _ | .publishEvent _ => False
  | .sendEphemeralPost _ post => post.message = Service.helpText
  | _ => True

/-- Nothing has been delivered but the help text. -/
structure Host.OnlyHelps (before after : Host) : Prop where
  mails : after.mails = before.mails
  events : after.events = before.events
  posts : after.posts = before.posts
  ephemeral : ∃ replies, after.ephemeral = before.ephemeral ++ replies ∧
    ∀ reply ∈ replies, reply.2.message = Service.helpText

namespace Host

theorem onlyHelps_refl (h : Host) : h.OnlyHelps h :=
  ⟨rfl, rfl, rfl, [], (List.append_nil _).symm, by simp⟩

/-- A quiet call that meets no fault. -/
theorem perform_onlyHelps (h : Host) {c : HostCall} (hc : c.IsQuiet) :
    h.OnlyHelps (h.perform c).2 := by
  have hself := h.onlyHelps_refl
  cases c with
  | sendMail recipient subject body => exact hc.elim
  | createPost post => exact hc.elim
  | publishEvent event => exact hc.elim
  | sendEphemeralPost userId post =>
    refine ⟨rfl, rfl, rfl, [_], rfl, List.forall_mem_singleton.2 ?_⟩
    exact hc
  | getUser id =>
    rw [perform]
    split <;> exact hself
  | getChannelMember channelId userId =>
    rw [perform]
    split <;> exact hself
  | getChannelMembers channelId page perPage => exact hself
  | maxUsersPerTeam => exact hself
  | registerCommand command => exact ⟨rfl, rfl, rfl, hself.ephemeral⟩
  | ensureBot bot => exact ⟨rfl, rfl, rfl, hself.ephemeral⟩

theorem OnlyHelps.trans {before middle after : Host} (h : before.OnlyHelps middle)
    (h' : middle.OnlyHelps after) : before.OnlyHelps after := by
  obtain ⟨replies, hreplies, hhelps⟩ := h.ephemeral
  obtain ⟨others, hothers, hothersHelp⟩ := h'.ephemeral
  refine ⟨h'.mails.trans h.mails, h'.events.trans h.events, h'.posts.trans h.posts,
    replies ++ others, ?_, List.forall_mem_append.2 ⟨hhelps, hothersHelp⟩⟩
  rw [hothers, hreplies, List.append_assoc]

/-- Quiet calls deliver nothing but the help text. -/
theorem preserves_onlyHelps (before : Host) {c : HostCall} (hc : c.IsQuiet) :
    Preserves before.OnlyHelps c := by
  intro h answer h' hbefore hcall
  rw [call] at hcall
  split at hcall
  · cases hcall
  · cases hcall
    exact hbefore
  · obtain rfl : (h.perform c).2 = h' := congrArg Prod.snd (Option.some.inj hcall)
    exact hbefore.trans (h.perform_onlyHelps hc)

end Host

/-! ## Operations without a store call -/

namespace Service

variable (s : Service)

theorem storeless_ask {c : HostCall} (hc : c.IsQuiet) :
    (ask c).run.Storeless limit HostCall.IsQuiet :=
  .run_wrap (.run_host hc)

theorem storeless_activate : s.activate.run.Storeless limit HostCall.IsQuiet :=
  .run_bind (storeless_ask trivial) fun _ => .run_bind (storeless_ask trivial) fun _ => .run_pure _

theorem storeless_requireMember (userId channelId : String) :
    (requireMember userId channelId).run.Storeless limit HostCall.IsQuiet :=
  .run_bind (.run_wrap (.run_host trivial)) fun _ => .run_pure ()

theorem storeless_lookup (address : String) (pairs : List (String × String)) :
    (KeyServer.Client.lookup address pairs).run.Storeless limit HostCall.IsQuiet := by
  refine .run_bind (.run_fetch _) fun answer => ?_
  cases answer with
  | error reason => exact .run_throw _
  | ok reply =>
    dsimp only
    split
    · exact .run_pure _
    · split
      · exact .run_pure _
      · exact .run_throw _

theorem storeless_gpgKeyOf (userId : String) :
    (s.gpgKeyOf userId).run.Storeless limit HostCall.IsQuiet := by
  refine .run_bind (storeless_ask trivial) fun user => .run_wrap (.run_bind ?_ fun keyId => ?_)
  · refine .run_bind (.run_bind (storeless_lookup _ _) fun body => ?_) fun listings => trivial
    cases body <;> exact .run_pure _
  · refine .run_bind (storeless_lookup _ _) fun body => ?_
    cases body with
    | none => exact .run_throw _
    | some body => trivial

theorem storeless_help (call : Invocation) :
    (s.reply call helpText).run.Storeless limit HostCall.IsQuiet :=
  .run_bind (storeless_ask rfl) fun _ => .run_pure ()

end Service

/-! ## Limits of stored values -/

namespace Modes

variable (m : Modes) (channelId : String) (mode : Mode)

theorem limited_get : (m.get channelId).Limited m.limit := by
  refine .bind (.run_store _) fun answer => ?_
  cases answer <;> exact .pure _

theorem limited_replace : (m.replace channelId mode).run.Limited m.limit := by
  refine .run_bind (.run_store _) fun raw => ?_
  split
  · exact .run_pure false
  · exact .run_bind (.run_store _) fun _ => .run_pure true

theorem limited_exchange (attempts : Nat) :
    (m.exchange channelId mode attempts).run.Limited m.limit := by
  induction attempts with
  | zero => exact .run_throw _
  | succ attempts ih =>
    refine .run_bind (.run_store _) fun raw => ?_
    split
    · exact .run_pure false
    · refine .run_bind (.run_store _) fun swapped => ?_
      cases swapped with
      | true => exact .run_pure true
      | false => exact ih

theorem limited_setIfDifferent : (m.setIfDifferent channelId mode).run.Limited m.limit := by
  refine .locked ?_
  split
  · exact m.limited_exchange channelId mode rounds
  · exact m.limited_replace channelId mode

end Modes

namespace PublicKeys

theorem limited_set (userId : String) (pair : KeyPair) :
    (set limit userId pair).run.Limited limit :=
  .run_wrap (.run_store _)

theorem limited_get (diagnose : Json.Diagnosis) (userId : String) :
    (get diagnose limit userId).run.Limited limit := by
  refine .run_bind (.run_wrap (.run_store _)) fun raw => ?_
  cases raw with
  | none => exact .run_pure none
  | some bytes =>
    dsimp only
    split
    · exact .run_pure _
    · exact .run_throw _

theorem limited_getManyFrom (diagnose : Json.Diagnosis) (userIds : List String)
    (found : Table (Option KeyPair)) :
    (getManyFrom diagnose limit found userIds).run.Limited limit := by
  induction userIds generalizing found with
  | nil => exact .run_pure found
  | cons userId rest ih => exact .run_bind (limited_get diagnose userId) fun pair => ih _

theorem limited_has (userId : String) : (has limit userId).run.Limited limit :=
  .run_bind (.run_store _) fun _ => .run_pure _

theorem limited_without (userIds : List String) : (without limit userIds).run.Limited limit := by
  induction userIds with
  | nil => exact .run_pure []
  | cons userId rest ih =>
    exact .run_bind (limited_has userId) fun present => .run_bind ih fun others => .run_pure _

theorem limited_membersWithout (channelId : String) :
    (membersWithout limit channelId).run.Limited limit :=
  .run_bind (.run_wrap (.run_host _)) fun _ => .run_bind (.run_wrap (.run_host _)) fun _ =>
    .run_wrap (limited_without _)

end PublicKeys

namespace Backups

variable (userId : String)

theorem limited_store (backup : String) : (store limit userId backup).run.Limited limit :=
  .run_store _

theorem limited_get : (get limit userId).run.Limited limit :=
  .run_bind (.run_store _) fun _ => .run_pure _

theorem limited_delete : (delete limit userId).run.Limited limit :=
  .run_store _

end Backups

/-! ## Limits of the operations of the service -/

namespace Service

variable (s : Service)

theorem limited_ask (c : HostCall) : (ask c).run.Limited limit :=
  .run_wrap (.run_host c)

theorem limited_channelMode (userId channelId : String) :
    (s.channelMode userId channelId).run.Limited s.limit :=
  .run_bind (storeless_requireMember userId channelId).limited fun _ =>
    .run_lift (s.modes.limited_get channelId)

theorem limited_mentions (userIds : List String) : (mentions userIds).run.Limited limit := by
  induction userIds with
  | nil => exact .run_pure ""
  | cons userId rest ih =>
    exact .run_bind (limited_ask _) fun user => .run_bind ih fun others => .run_pure _

theorem limited_missingKeysWarning (channelId : String) :
    (s.missingKeysWarning channelId).run.Limited s.limit := by
  refine .run_bind (.run_wrap (PublicKeys.limited_membersWithout channelId)) fun missing => ?_
  split
  · exact .run_pure ""
  · exact .run_bind (limited_mentions missing) fun mentioned => .run_pure _

theorem limited_announcement (userId channelId : String) (mode : Mode) :
    (s.announcement userId channelId mode).run.Limited s.limit := by
  refine .run_bind (limited_ask _) fun user => ?_
  cases mode with
  | plain => exact .run_pure _
  | p2p => exact .run_bind (s.limited_missingKeysWarning channelId) fun warning => .run_pure _

theorem limited_announceMode (userId channelId : String) (mode : Mode) (changed : Bool) :
    (s.announceMode userId channelId mode changed).run.Limited s.limit := by
  cases changed with
  | true =>
    refine .run_bind (.run_attempt (.run_host _)) fun _ => ?_
    exact .run_bind (s.limited_announcement userId channelId mode) fun message =>
      .run_bind (limited_ask _) fun _ => .run_pure true
  | false =>
    exact .run_bind (.run_bind (.run_attempt (.run_host _)) fun _ => .run_pure ()) fun _ =>
      .run_pure false

theorem limited_changeMode (userId channelId : String) (mode : Mode) :
    (s.changeMode userId channelId mode).run.Limited s.limit := by
  rw [changeMode_eq]
  refine .run_bind ?_ fun changed => s.limited_announceMode userId channelId mode changed
  exact .run_bind (storeless_requireMember userId channelId).limited fun _ =>
    .run_wrap (s.modes.limited_setIfDifferent channelId mode)

theorem limited_mailBackup (userId : String) : (s.mailBackup userId).run.Limited s.limit := by
  refine .run_bind (limited_ask _) fun user => ?_
  refine .run_bind (.run_wrap (Backups.limited_get userId)) fun backup => ?_
  cases backup with
  | none => exact .run_throw _
  | some backup => exact .run_wrap (.run_host _)

theorem limited_pushKeys (userId : String) (push : KeyPush) :
    (s.pushKeys userId push).run.Limited s.limit := by
  rw [pushKeys]
  cases push.pair.check with
  | error cause => exact .run_throw _
  | ok points =>
    refine .run_bind (.run_wrap (PublicKeys.limited_set userId push.pair)) fun _ => ?_
    refine .run_bind (.run_attempt (.run_host _)) fun _ => ?_
    cases push.backup with
    | none => exact .run_wrap (Backups.limited_delete userId)
    | some backup =>
      exact .run_bind (.run_wrap (Backups.limited_store userId backup)) fun _ =>
        s.limited_mailBackup userId

theorem limited_keysOf (userIds : List String) : (s.keysOf userIds).run.Limited s.limit :=
  .run_wrap (PublicKeys.limited_getManyFrom _ userIds .empty)

theorem limited_reply (call : Invocation) (text : String) :
    (s.reply call text).run.Limited limit :=
  .run_bind (limited_ask _) fun _ => .run_pure ()

theorem limited_executeWord (call : Invocation) (word : String) :
    (s.executeWord call word).run.Limited s.limit := by
  rw [executeWord]
  split
  · exact s.limited_reply call helpText
  · split
    · refine .run_bind (.run_wrap (Backups.limited_get call.userId)) fun backup => ?_
      cases backup with
      | none => exact .run_throw _
      | some backup => exact s.limited_reply call backup
    · exact .run_throw _

theorem limited_execute (call : Invocation) : (s.execute call).run.Limited s.limit := by
  rw [execute]
  split
  · exact s.limited_executeWord call _
  · exact s.limited_executeWord call "help"
  · exact .run_pure ()

theorem limited_judge (post : Post) : (s.judge post).Limited s.limit := by
  rw [judge]
  split
  · exact .pure _
  · refine .bind (s.modes.limited_get post.channelId) fun mode => ?_
    cases mode with
    | plain => exact .pure _
    | p2p =>
      dsimp only
      split
      · refine .bind (.run_host _) fun author => ?_
        cases author <;> exact .pure _
      · exact .pure _

end Service

/-! ## Stored values on a store that is too slow -/

variable {ends : Prop}

namespace Modes

variable (m : Modes) (channelId : String) (mode : Mode)

/-- A mode that cannot be read in time counts as no encryption. -/
theorem stops_get :
    (m.get channelId).Stops m.limit HostCall.IsQuiet (· = .plain) fun _ => ends := by
  have hread : (Operation.store m.limit (.get (Key.mode channelId))).run.Stops m.limit
      HostCall.IsQuiet (· = .error (.timeout m.limit)) fun _ => False := .run_store fun _ => rfl
  refine stops_bind.2 (hread.imp ?_ fun _ => False.elim)
  rintro _ rfl
  rfl

theorem stops_setIfDifferent : (m.setIfDifferent channelId mode).run.Stops m.limit
    HostCall.IsQuiet (· = .error (.timeout m.limit)) fun _ => ends := by
  rw [setIfDifferent, ExceptT.run_mk, stops_locked]
  split
  · exact .run_bind (.run_store fun _ => rfl)
  · exact .run_bind (.run_store fun _ => rfl)

end Modes

namespace PublicKeys

theorem stops_set (userId : String) (pair : KeyPair) : (set limit userId pair).run.Stops limit
    HostCall.IsQuiet (· = .error (.store (.timeout limit))) fun _ => ends :=
  .run_wrap (.run_store fun _ => rfl)

theorem stops_get (diagnose : Json.Diagnosis) (userId : String) :
    (get diagnose limit userId).run.Stops limit HostCall.IsQuiet
      (· = .error (.store (.timeout limit))) fun _ => ends :=
  .run_bind (.run_wrap (.run_store fun _ => rfl))

theorem stops_getMany (diagnose : Json.Diagnosis) (userIds : List String) :
    (getMany diagnose limit userIds).run.Stops limit HostCall.IsQuiet
      (· = .error (.store (.timeout limit))) fun _ => True := by
  cases userIds with
  | nil => trivial
  | cons userId rest => exact .run_bind (stops_get diagnose userId)

theorem stops_has (userId : String) : (has limit userId).run.Stops limit HostCall.IsQuiet
    (· = .error (.timeout limit)) fun _ => ends :=
  .run_bind (.run_store fun _ => rfl)

theorem stops_without (userIds : List String) : (without limit userIds).run.Stops limit
    HostCall.IsQuiet (· = .error (.timeout limit)) fun _ => True := by
  cases userIds with
  | nil => trivial
  | cons userId rest => exact .run_bind (stops_has userId)

theorem stops_membersWithout (channelId : String) : (membersWithout limit channelId).run.Stops
    limit HostCall.IsQuiet (· = .error (.store (.timeout limit))) fun _ => True := by
  refine .run_storeless_bind (.run_wrap (.run_host trivial)) fun perPage => ?_
  refine .run_storeless_bind (.run_wrap (.run_host trivial)) fun members => ?_
  exact .run_wrap (stops_without _)

end PublicKeys

namespace Backups

variable (userId : String)

theorem stops_store (backup : String) : (store limit userId backup).run.Stops limit
    HostCall.IsQuiet (· = .error (.timeout limit)) fun _ => ends :=
  .run_store fun _ => rfl

theorem stops_get : (get limit userId).run.Stops limit HostCall.IsQuiet
    (· = .error (.timeout limit)) fun _ => ends :=
  .run_bind (.run_store fun _ => rfl)

theorem stops_delete : (delete limit userId).run.Stops limit HostCall.IsQuiet
    (· = .error (.timeout limit)) fun _ => ends :=
  .run_store fun _ => rfl

end Backups

/-! ## The operations of the service on a store that is too slow -/

namespace Service

variable (s : Service)

theorem stops_channelMode (userId channelId : String) :
    (s.channelMode userId channelId).run.Stops s.limit HostCall.IsQuiet (· = .ok .plain)
      fun _ => True :=
  .run_storeless_bind (storeless_requireMember userId channelId) fun _ =>
    .run_lift (s.modes.stops_get channelId)

theorem stops_changeMode (userId channelId : String) (mode : Mode) :
    (s.changeMode userId channelId mode).run.Stops s.limit HostCall.IsQuiet
      (· = .error (.store (.timeout s.limit))) fun _ => True :=
  .run_storeless_bind (storeless_requireMember userId channelId) fun _ =>
    .run_bind (.run_wrap (s.modes.stops_setIfDifferent channelId mode))

theorem stops_mailBackup (userId : String) :
    (s.mailBackup userId).run.Stops s.limit HostCall.IsQuiet
      (· = .error (.store (.timeout s.limit))) fun _ => True :=
  .run_storeless_bind (storeless_ask trivial) fun _ =>
    .run_bind (.run_wrap (Backups.stops_get userId))

theorem stops_pushKeys (userId : String) (push : KeyPush) :
    (s.pushKeys userId push).run.Stops s.limit HostCall.IsQuiet
      (· = .error (.publicKey (.store (.timeout s.limit)))) fun _ => True := by
  rw [pushKeys]
  cases push.pair.check with
  | error cause => exact (Storeless.run_throw _).stops _
  | ok points => exact .run_bind (.run_wrap (PublicKeys.stops_set userId push.pair))

theorem stops_keysOf (userIds : List String) :
    (s.keysOf userIds).run.Stops s.limit HostCall.IsQuiet
      (· = .error (.publicKey (.store (.timeout s.limit)))) fun _ => True :=
  .run_wrap (PublicKeys.stops_getMany _ userIds)

theorem stops_executeWord (call : Invocation) (word : String) :
    (s.executeWord call word).run.Stops s.limit HostCall.IsQuiet
      (· = .error (.store (.timeout s.limit))) fun _ => True := by
  rw [executeWord]
  split
  · exact (s.storeless_help call).stops _
  · split
    · exact .run_bind (.run_wrap (Backups.stops_get call.userId))
    · exact (Storeless.run_throw _).stops _

theorem stops_execute (call : Invocation) :
    (s.execute call).run.Stops s.limit HostCall.IsQuiet
      (· = .error (.store (.timeout s.limit))) fun _ => True := by
  rw [execute]
  split
  · exact s.stops_executeWord call _
  · exact s.stops_executeWord call "help"
  · exact (Storeless.run_pure ()).stops _

theorem stops_judge (post : Post) :
    (s.judge post).Stops s.limit HostCall.IsQuiet (· = .allow) fun _ => True := by
  rw [judge]
  split
  · trivial
  · refine stops_bind.2 ((s.modes.stops_get post.channelId).imp ?_ fun _ => False.elim)
    rintro _ rfl
    rfl

end Service

/-! ## Every operation -/

/-- An operation makes its store calls under a limit, and comes to the answer `late?` if the first
one of them times out; `none` if it makes no store call. -/
inductive Timed : {α : Type} → Duration → Program α → Option α → Prop
  | getMode (m : Modes) (channelId : String) : Timed m.limit (m.get channelId) (some .plain)
  | setMode (m : Modes) (channelId : String) (mode : Mode) :
    Timed m.limit (m.setIfDifferent channelId mode).run (some (.error (.timeout m.limit)))
  | setKeys (limit : Duration) (userId : String) (pair : KeyPair) :
    Timed limit (PublicKeys.set limit userId pair).run (some (.error (.store (.timeout limit))))
  | getKeys (diagnose : Json.Diagnosis) (limit : Duration) (userId : String) :
    Timed limit (PublicKeys.get diagnose limit userId).run
      (some (.error (.store (.timeout limit))))
  | getMany (diagnose : Json.Diagnosis) (limit : Duration) (userIds : List String) :
    Timed limit (PublicKeys.getMany diagnose limit userIds).run
      (some (.error (.store (.timeout limit))))
  | hasKeys (limit : Duration) (userId : String) :
    Timed limit (PublicKeys.has limit userId).run (some (.error (.timeout limit)))
  | membersWithout (limit : Duration) (channelId : String) :
    Timed limit (PublicKeys.membersWithout limit channelId).run
      (some (.error (.store (.timeout limit))))
  | storeBackup (limit : Duration) (userId backup : String) :
    Timed limit (Backups.store limit userId backup).run (some (.error (.timeout limit)))
  | getBackup (limit : Duration) (userId : String) :
    Timed limit (Backups.get limit userId).run (some (.error (.timeout limit)))
  | deleteBackup (limit : Duration) (userId : String) :
    Timed limit (Backups.delete limit userId).run (some (.error (.timeout limit)))
  | activate (s : Service) : Timed s.limit s.activate.run none
  | pushKeys (s : Service) (userId : String) (push : KeyPush) :
    Timed s.limit (s.pushKeys userId push).run
      (some (.error (.publicKey (.store (.timeout s.limit)))))
  | mailBackup (s : Service) (userId : String) :
    Timed s.limit (s.mailBackup userId).run (some (.error (.store (.timeout s.limit))))
  | keysOf (s : Service) (userIds : List String) :
    Timed s.limit (s.keysOf userIds).run (some (.error (.publicKey (.store (.timeout s.limit)))))
  | channelMode (s : Service) (userId channelId : String) :
    Timed s.limit (s.channelMode userId channelId).run (some (.ok .plain))
  | changeMode (s : Service) (userId channelId : String) (mode : Mode) :
    Timed s.limit (s.changeMode userId channelId mode).run
      (some (.error (.store (.timeout s.limit))))
  | gpgKeyOf (s : Service) (userId : String) : Timed s.limit (s.gpgKeyOf userId).run none
  | judge (s : Service) (post : Post) : Timed s.limit (s.judge post) (some .allow)
  | execute (s : Service) (call : Invocation) :
    Timed s.limit (s.execute call).run (some (.error (.store (.timeout s.limit))))

namespace Timed

variable {α : Type} {p : Program α} {late? : Option α}

theorem limited (h : Timed limit p late?) : p.Limited limit := by
  cases h with
  | getMode m channelId => exact m.limited_get channelId
  | setMode m channelId mode => exact m.limited_setIfDifferent channelId mode
  | setKeys _ userId pair => exact PublicKeys.limited_set userId pair
  | getKeys diagnose _ userId => exact PublicKeys.limited_get diagnose userId
  | getMany diagnose _ userIds => exact PublicKeys.limited_getManyFrom diagnose userIds .empty
  | hasKeys _ userId => exact PublicKeys.limited_has userId
  | membersWithout _ channelId => exact PublicKeys.limited_membersWithout channelId
  | storeBackup _ userId backup => exact Backups.limited_store userId backup
  | getBackup _ userId => exact Backups.limited_get userId
  | deleteBackup _ userId => exact Backups.limited_delete userId
  | activate s => exact s.storeless_activate.limited
  | pushKeys s userId push => exact s.limited_pushKeys userId push
  | mailBackup s userId => exact s.limited_mailBackup userId
  | keysOf s userIds => exact s.limited_keysOf userIds
  | channelMode s userId channelId => exact s.limited_channelMode userId channelId
  | changeMode s userId channelId mode => exact s.limited_changeMode userId channelId mode
  | gpgKeyOf s userId => exact (s.storeless_gpgKeyOf userId).limited
  | judge s post => exact s.limited_judge post
  | execute s call => exact s.limited_execute call

theorem stops (h : Timed limit p late?) :
    p.Stops limit HostCall.IsQuiet (late? = some ·) fun _ => True := by
  have some_of_eq {a : α} (h : p.Stops limit HostCall.IsQuiet (· = a) fun _ => True) :
      p.Stops limit HostCall.IsQuiet (some a = some ·) fun _ => True :=
    h.imp (fun _ ha => congrArg some ha.symm) fun _ _ => trivial
  cases h with
  | getMode m channelId => exact some_of_eq (m.stops_get channelId)
  | setMode m channelId mode => exact some_of_eq (m.stops_setIfDifferent channelId mode)
  | setKeys _ userId pair => exact some_of_eq (PublicKeys.stops_set userId pair)
  | getKeys diagnose _ userId => exact some_of_eq (PublicKeys.stops_get diagnose userId)
  | getMany diagnose _ userIds => exact some_of_eq (PublicKeys.stops_getMany diagnose userIds)
  | hasKeys _ userId => exact some_of_eq (PublicKeys.stops_has userId)
  | membersWithout _ channelId => exact some_of_eq (PublicKeys.stops_membersWithout channelId)
  | storeBackup _ userId backup => exact some_of_eq (Backups.stops_store userId backup)
  | getBackup _ userId => exact some_of_eq (Backups.stops_get userId)
  | deleteBackup _ userId => exact some_of_eq (Backups.stops_delete userId)
  | activate s => exact s.storeless_activate.stops _
  | pushKeys s userId push => exact some_of_eq (s.stops_pushKeys userId push)
  | mailBackup s userId => exact some_of_eq (s.stops_mailBackup userId)
  | keysOf s userIds => exact some_of_eq (s.stops_keysOf userIds)
  | channelMode s userId channelId => exact some_of_eq (s.stops_channelMode userId channelId)
  | changeMode s userId channelId mode =>
    exact some_of_eq (s.stops_changeMode userId channelId mode)
  | gpgKeyOf s userId => exact (s.storeless_gpgKeyOf userId).stops _
  | judge s post => exact some_of_eq (s.stops_judge post)
  | execute s call => exact some_of_eq (s.stops_execute call)

end Timed

/-- What becomes of a run if the store is too slow: nothing is read or written, and nothing is
delivered but the help text.  If the run would have made a store call, it comes to the late answer,
and if not, it goes as with a store that answers at once. -/
structure Program.Delayed {α : Type} (p : Program α) (late? : Option α) (w : World)
    (latency : Duration) : Prop where
  entries : (p.run none (w.withLatency latency)).2.store.entries = w.store.entries
  gets : (p.run none (w.withLatency latency)).2.store.gets = w.store.gets
  writes : (p.run none (w.withLatency latency)).2.store.writes = w.store.writes
  delivered : w.host.OnlyHelps (p.run none (w.withLatency latency)).2.host
  late : (∃ e ∈ p.transcript none (w.withLatency ⟨0⟩), e.call.isStore = true) →
    ∃ a, late? = some a ∧ (p.run none (w.withLatency latency)).1 = .finished a
  unaffected : (∀ e ∈ p.transcript none (w.withLatency ⟨0⟩), e.call.isStore = false) →
    p.Unaffected w latency

/-- A program that ends with its first store call, on a store that is too slow. -/
theorem Program.Stops.delayed {α : Type} {p : Program α} {late? : Option α} {latency : Duration}
    (h : p.Stops limit HostCall.IsQuiet (late? = some ·) fun _ => True)
    (hlatency : latency.Exceeds limit) (w : World) : p.Delayed late? w latency := by
  have hleft : World.HeldUp limit w.host.OnlyHelps (w.withLatency latency).store
      (p.run none (w.withLatency latency)).2 :=
    h.heldUp_run (fun _ hc => w.host.preserves_onlyHelps hc) hlatency w.host.onlyHelps_refl
  refine ⟨hleft.entries, hleft.gets, hleft.writes, hleft.host, ?_, ?_⟩
  · rintro ⟨e, he, hstore⟩
    rcases h.run_withLatency hlatency w with ⟨hnone, -⟩ | ⟨-, hlate⟩
    · rw [hnone e he] at hstore
      cases hstore
    · exact hlate
  · intro hnone
    rcases h.run_withLatency hlatency w with ⟨-, hunaffected⟩ | ⟨⟨e, he, hstore⟩, -⟩
    · exact hunaffected
    · rw [hnone e he] at hstore
      cases hstore

/-- **Slow stores.**  As long as the latency of the store does not exceed the limit, an operation
goes as with a store that answers at once; from there on it does nothing and comes to its late
answer.  No latency up to the limit exceeds it, and every longer one exceeds a limit of whole
milliseconds below the longest wait. -/
theorem Timed.unaffected_or_delayed {α : Type} {p : Program α} {late? : Option α}
    (h : Timed limit p late?) (w : World) (latency : Duration) :
    (latency ≤ limit → ¬ latency.Exceeds limit) ∧
      (∀ n, limit = .ofMillis n → limit < .longestWait → limit < latency →
        latency.Exceeds limit) ∧
      (¬ latency.Exceeds limit → p.Unaffected w latency) ∧
      (latency.Exceeds limit → p.Delayed late? w latency) := by
  refine ⟨Duration.not_exceeds_of_le, ?_, fun hlatency => h.limited.unaffected hlatency w,
    fun hlatency => h.stops.delayed hlatency w⟩
  rintro n rfl hlongest hlonger
  exact Duration.exceeds_ofMillis hlonger hlongest

/-- A service with default settings. -/
def promptService : Service :=
  .new default true

/-- A channel with one member. -/
def townWorld : World :=
  { World.new (.new true true) with host := Host.new.addMember "town" "ann" }

/-- A change of a mode goes as it should with a store that takes three seconds, and fails with one
that takes seven. -/
theorem Timed.unaffected_or_delayed_of_change :
    Timed (.ofSeconds 5) (promptService.changeMode "ann" "town" .p2p).run
        (some (.error (.store (.timeout (.ofSeconds 5))))) ∧
      Unaffected (promptService.changeMode "ann" "town" .p2p).run townWorld (.ofSeconds 3) ∧
      Delayed (promptService.changeMode "ann" "town" .p2p).run
        (some (.error (.store (.timeout (.ofSeconds 5))))) townWorld (.ofSeconds 7) ∧
      (Program.run none (promptService.changeMode "ann" "town" .p2p).run
        (townWorld.withLatency (.ofSeconds 7))).1 =
          .finished (.error (.store (.timeout (.ofSeconds 5)))) := by
  have h : Timed (.ofSeconds 5) (promptService.changeMode "ann" "town" .p2p).run
      (some (.error (.store (.timeout (.ofSeconds 5))))) :=
    .changeMode promptService "ann" "town" .p2p
  obtain ⟨hshorter, -, hunaffected, -⟩ := h.unaffected_or_delayed townWorld (.ofSeconds 3)
  obtain ⟨-, hlonger, -, hdelayed⟩ := h.unaffected_or_delayed townWorld (.ofSeconds 7)
  have hslow := hdelayed (hlonger 5000 rfl (by decide) (by decide))
  have hstore : ∃ e ∈ transcript none (promptService.changeMode "ann" "town" .p2p).run
      (townWorld.withLatency ⟨0⟩), e.call.isStore = true := by decide +kernel
  refine ⟨h, hunaffected (hshorter (by decide)), hslow, ?_⟩
  obtain ⟨a, ha, hfinished⟩ := hslow.late hstore
  cases ha
  exact hfinished

/-- A store that takes longer than the limit is not too slow yet, if both end with the same tick:
less than a millisecond apart, or both beyond the longest wait. -/
theorem has_of_same_tick :
    (Timed (.ofMicros 999) (PublicKeys.has (.ofMicros 999) "u").run
        (some (.error (.timeout (.ofMicros 999)))) ∧
      Duration.ofMicros 999 < .ofMillis 1 ∧
      (∃ e ∈ transcript none (PublicKeys.has (.ofMicros 999) "u").run
        ((World.new .memory).withLatency ⟨0⟩), e.call.isStore = true) ∧
      (Program.run none (PublicKeys.has (.ofMicros 999) "u").run
        ((World.new .memory).withLatency (.ofMillis 1))).1 = .finished (.ok false)) ∧
    Timed (.ofSeconds 1000000000) (PublicKeys.has (.ofSeconds 1000000000) "u").run
        (some (.error (.timeout (.ofSeconds 1000000000)))) ∧
      Duration.ofSeconds 1000000000 < .ofMillis 1100000000000 ∧
      (∃ e ∈ transcript none (PublicKeys.has (.ofSeconds 1000000000) "u").run
        ((World.new .memory).withLatency ⟨0⟩), e.call.isStore = true) ∧
      (Program.run none (PublicKeys.has (.ofSeconds 1000000000) "u").run
        ((World.new .memory).withLatency (.ofMillis 1100000000000))).1
          = .finished (.ok false) := by
  refine ⟨⟨.hasKeys (.ofMicros 999) "u", by decide, ?_, rfl⟩,
    .hasKeys (.ofSeconds 1000000000) "u", by decide, ?_, rfl⟩
  all_goals decide +kernel

end SealedChannel
