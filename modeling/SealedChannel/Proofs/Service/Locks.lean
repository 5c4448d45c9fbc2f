import SealedChannel.Proofs.Program.Locks
import SealedChannel.Proofs.Service.ChannelMode
import SealedChannel.Service.Keys

/-!
# The locks of the service

Of all operations of the service only a change of a mode takes a lock, the one of its channel, and
it gives the lock back before it tells anybody of the change.  So every operation holds the same
locks at its end as at its beginning, and whoever begins with none can always take it.

## What is here

* `Modes.restores_get`, `Modes.restores_setIfDifferent` — the mode of one channel.
* `PublicKeys.restores_get` and the others — key pairs of any users.
* `Service.restores_pushKeys`, `Service.restores_changeMode` and the others — the operations that
  answer requests.
-/

set_option autoImplicit false
namespace SealedChannel

open Program

variable {held : List Nat}

/-! ## Stored values -/

namespace Modes

variable (m : Modes) (channelId : String) (mode : Mode)

theorem restores_get : (m.get channelId).Restores held := by
  refine .bind (.run_store _ _) fun answer => ?_
  cases answer <;> exact .pure _

theorem restores_replace : (m.replace channelId mode).run.Restores held := by
  refine .run_bind (.run_store _ _) fun raw => ?_
  split
  · exact .run_pure false
  · exact .run_bind (.run_store _ _) fun _ => .run_pure true

theorem restores_exchange (attempts : Nat) :
    (m.exchange channelId mode attempts).run.Restores held := by
  induction attempts with
  | zero => exact .run_throw _
  | succ attempts ih =>
    refine .run_bind (.run_store _ _) fun raw => ?_
    split
    · exact .run_pure false
    · refine .run_bind (.run_store _ _) fun swapped => ?_
      cases swapped with
      | true => exact .run_pure true
      | false => exact ih

/-- A change of a mode takes the lock of its channel and gives it back. -/
theorem restores_setIfDifferent (hfree : m.lockOf channelId ∉ held) :
    (m.setIfDifferent channelId mode).run.Restores held := by
  refine .locked hfree ?_
  split
  · exact m.restores_exchange channelId mode rounds
  · exact m.restores_replace channelId mode

end Modes

namespace PublicKeys

variable (limit : Duration)

theorem restores_get (diagnose : Json.Diagnosis) (userId : String) :
    (get diagnose limit userId).run.Restores held := by
  refine .run_bind (.run_wrap (.run_store _ _)) fun raw => ?_
  cases raw with
  | none => exact .run_pure none
  | some bytes =>
    dsimp only
    split
    · exact .run_pure _
    · exact .run_throw _

theorem restores_getManyFrom (diagnose : Json.Diagnosis) (userIds : List String)
    (found : Table (Option KeyPair)) :
    (getManyFrom diagnose limit found userIds).run.Restores held := by
  induction userIds generalizing found with
  | nil => exact .run_pure found
  | cons userId rest ih => exact .run_bind (restores_get limit diagnose userId) fun pair => ih _

theorem restores_without (userIds : List String) :
    (without limit userIds).run.Restores held := by
  induction userIds with
  | nil => exact .run_pure []
  | cons userId rest ih =>
    refine .run_bind (.run_bind (.run_store _ _) fun _ => .run_pure _) fun present => ?_
    exact .run_bind ih fun others => .run_pure _

theorem restores_membersWithout (channelId : String) :
    (membersWithout limit channelId).run.Restores held := by
  refine .run_bind (.run_wrap (.run_host _)) fun perPage => ?_
  exact .run_bind (.run_wrap (.run_host _)) fun members =>
    .run_wrap (restores_without limit _)

end PublicKeys

/-! ## The operations of the service -/

namespace Service

variable (s : Service)

theorem restores_ask (c : HostCall) : (ask c).run.Restores held :=
  .run_wrap (.run_host c)

theorem restores_requireMember (userId channelId : String) :
    (requireMember userId channelId).run.Restores held :=
  .run_bind (.run_wrap (.run_host _)) fun _ => .run_pure ()

theorem restores_channelMode (userId channelId : String) :
    (s.channelMode userId channelId).run.Restores held :=
  .run_bind (restores_requireMember userId channelId) fun _ =>
    .run_lift (s.modes.restores_get channelId)

theorem restores_mentions (userIds : List String) : (mentions userIds).run.Restores held := by
  induction userIds with
  | nil => exact .run_pure ""
  | cons userId rest ih =>
    exact .run_bind (restores_ask _) fun user => .run_bind ih fun others => .run_pure _

theorem restores_missingKeysWarning (channelId : String) :
    (s.missingKeysWarning channelId).run.Restores held := by
  refine .run_bind (.run_wrap (PublicKeys.restores_membersWithout _ channelId)) fun missing => ?_
  split
  · exact .run_pure ""
  · exact .run_bind (restores_mentions missing) fun mentioned => .run_pure _

theorem restores_announcement (userId channelId : String) (mode : Mode) :
    (s.announcement userId channelId mode).run.Restores held := by
  refine .run_bind (restores_ask _) fun user => ?_
  cases mode with
  | plain => exact .run_pure _
  | p2p => exact .run_bind (s.restores_missingKeysWarning channelId) fun warning => .run_pure _

theorem restores_announceMode (userId channelId : String) (mode : Mode) (changed : Bool) :
    (s.announceMode userId channelId mode changed).run.Restores held := by
  rw [announceMode]
  split
  · refine .run_bind (.run_attempt (.run_host _)) fun _ => ?_
    refine .run_bind (s.restores_announcement userId channelId mode) fun message => ?_
    exact .run_bind (restores_ask _) fun _ => .run_pure true
  · refine .run_bind (.run_bind (.run_attempt (.run_host _)) fun _ => .run_pure ()) fun _ => ?_
    exact .run_pure false

/-- A change of a mode, with all that follows it, takes the lock of its channel and gives it back. -/
theorem restores_changeMode (userId : String) {channelId : String} (mode : Mode)
    (hfree : s.modes.lockOf channelId ∉ held) :
    (s.changeMode userId channelId mode).run.Restores held := by
  rw [changeMode_eq]
  refine .run_bind (.run_bind (restores_requireMember userId channelId) fun _ => ?_)
    fun changed => s.restores_announceMode userId channelId mode changed
  exact .run_wrap (s.modes.restores_setIfDifferent channelId mode hfree)

theorem restores_mailBackup (userId : String) : (s.mailBackup userId).run.Restores held := by
  refine .run_bind (restores_ask _) fun user => ?_
  refine .run_bind (.run_wrap (.run_bind (.run_store _ _) fun _ => .run_pure _)) fun backup => ?_
  cases backup with
  | none => exact .run_throw _
  | some backup => exact .run_wrap (.run_host _)

theorem restores_pushKeys (userId : String) (push : KeyPush) :
    (s.pushKeys userId push).run.Restores held := by
  rw [pushKeys]
  cases push.pair.check with
  | error cause => exact .run_throw _
  | ok points =>
    refine .run_bind (.run_wrap (.run_wrap (.run_store _ _))) fun _ => ?_
    refine .run_bind (.run_attempt (.run_host _)) fun _ => ?_
    cases push.backup with
    | none => exact .run_wrap (.run_store _ _)
    | some backup =>
      exact .run_bind (.run_wrap (.run_store _ _)) fun _ => s.restores_mailBackup userId

theorem restores_keysOf (userIds : List String) : (s.keysOf userIds).run.Restores held :=
  .run_wrap (PublicKeys.restores_getManyFrom _ _ userIds _)

theorem restores_lookup (address : String) (pairs : List (String × String)) :
    (KeyServer.Client.lookup address pairs).run.Restores held := by
  refine .run_bind (.run_lift (.fetch _)) fun answer => ?_
  cases answer with
  | error reason => exact .run_throw _
  | ok reply =>
    dsimp only
    split
    · exact .run_pure _
    · split
      · exact .run_pure _
      · exact .run_throw _

theorem restores_gpgKeyOf (userId : String) : (s.gpgKeyOf userId).run.Restores held := by
  refine .run_bind (restores_ask _) fun user => .run_wrap (.run_bind ?_ fun keyId => ?_)
  · refine .run_bind (.run_bind (restores_lookup _ _) fun body => ?_) fun listings => .pure _
    cases body <;> exact .run_pure _
  · refine .run_bind (restores_lookup _ _) fun body => ?_
    cases body with
    | none => exact .run_throw _
    | some body => exact .pure _

end Service

end SealedChannel
