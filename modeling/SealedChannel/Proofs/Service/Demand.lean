import SealedChannel.Proofs.Http.Footprint
import SealedChannel.Proofs.Storage.Key

/-!
# Demands on the service

Everything that the service can be asked for, in one type: the operations that a platform calls, the
slash command, the filter of posts, HTTP requests, and changes of a mode by another manager on the
same store.

## What is here

* `Demand`, `Reply`, `Demand.program` — what is asked for, what it comes to, and the program between
  them.
* `Demand.user?`, `Demand.push?`, `Demand.switching?` — on behalf of whom a demand is made, the key
  pair that it publishes, and the change of a mode that it asks for.
* `Demand.reach`, `Demand.within_program` — the reach of the whole service.
* `Demand.mayWrite`, `Demand.writes_program` — its footprint.
* `Job` — a demand on a service.
-/

set_option autoImplicit false
namespace SealedChannel

/-! ## Demands and replies -/

/-- What the service may be asked for. -/
inductive Demand where
  | activate
  | push (userId : String) (content : KeyPush)
  | mailBackup (userId : String)
  | keysOf (userIds : List String)
  | channelMode (userId channelId : String)
  | changeMode (userId channelId : String) (mode : Mode)
  | gpgKeyOf (userId : String)
  | judge (post : Post)
  | execute (call : Invocation)
  | answer (request : Http.Request)
  /-- A change of a mode by a manager of its own. -/
  | setMode (modes : Modes) (channelId : String) (mode : Mode)

/-- What a demand comes to. -/
inductive Reply where
  | activated (result : Except ServiceError Service)
  | done (result : Except ServiceError Unit)
  | keys (result : Except ServiceError (Table (Option KeyPair)))
  | mode (result : Except ServiceError Mode)
  | changed (result : Except ServiceError Bool)
  | text (result : Except ServiceError String)
  | verdict (verdict : Verdict)
  | response (response : Http.Response)
  | modeSet (result : Except StoreError Bool)

namespace Demand

/-- The program behind a demand. -/
def program (s : Service) : Demand → Program Reply
  | .activate => .activated <$> s.activate.run
  | .push userId content => .done <$> (s.pushKeys userId content).run
  | .mailBackup userId => .done <$> (s.mailBackup userId).run
  | .keysOf userIds => .keys <$> (s.keysOf userIds).run
  | .channelMode userId channelId => .mode <$> (s.channelMode userId channelId).run
  | .changeMode userId channelId mode => .changed <$> (s.changeMode userId channelId mode).run
  | .gpgKeyOf userId => .text <$> (s.gpgKeyOf userId).run
  | .judge post => .verdict <$> s.judge post
  | .execute call => .done <$> (s.execute call).run
  | .answer request => .response <$> Http.Api.serve s request
  | .setMode modes channelId mode => .modeSet <$> (modes.setIfDifferent channelId mode).run

/-! ## What a demand asks for -/

/-- The user on behalf of whom a demand is made, if there is one. -/
def user? : Demand → Option String
  | .push userId _ => some userId
  | .mailBackup userId => some userId
  | .channelMode userId _ => some userId
  | .changeMode userId _ _ => some userId
  | .gpgKeyOf userId => some userId
  | .execute call => some call.userId
  | .answer request => request.user?
  | .activate | .keysOf _ | .judge _ | .setMode _ _ _ => none

/-- The key pair that a demand publishes, with the user for whom it does. -/
def push? : Demand → Option (String × KeyPush)
  | .push userId content => some (userId, content)
  | .answer request => request.push?
  | _ => none

/-- The change of a mode that a demand asks for on behalf of a user: of whom, in which channel, and
to which mode. -/
def switching? : Demand → Option (String × String × Mode)
  | .changeMode userId channelId mode => some (userId, channelId, mode)
  | .answer request => request.switch?
  | _ => none

/-- A demand that asks for a change of a mode is met by that change. -/
theorem program_of_switching (s : Service) {d : Demand} {userId channelId : String} {mode : Mode}
    (h : d.switching? = some (userId, channelId, mode)) :
    ∃ f : Except ServiceError Bool → Reply,
      d.program s = f <$> (s.changeMode userId channelId mode).run := by
  cases d with
  | changeMode other otherId otherMode =>
    obtain ⟨rfl, hrest⟩ := Prod.mk.inj (Option.some.inj h)
    obtain ⟨rfl, rfl⟩ := Prod.mk.inj hrest
    exact ⟨_, rfl⟩
  | answer request =>
    refine ⟨fun result => .response (Http.Api.response (fun _ => .empty 200) result), ?_⟩
    rw [program, (Http.Api.answers_of_switch s h).serve, ← comp_map]
    rfl
  | _ => cases h

/-! ## Reach -/

/-- The writes that a demand may make. -/
def mayWrite : Demand → String → Option Bytes → Prop
  | .push userId content, key, value =>
    (key = Key.pubkey userId ∧ content.pair.isValid = true ∧ value = some content.pair.encode) ∨
      key = Key.backup userId
  | .changeMode _ channelId mode, key, value =>
    key = Key.mode channelId ∧ value = some mode.encode
  | .answer request, key, value => request.mayWrite key value
  | .setMode _ channelId mode, key, value => key = Key.mode channelId ∧ value = some mode.encode
  | _, _, _ => False

/-- The events that a demand may publish. -/
def mayPublish (d : Demand) (event : Event) : Prop :=
  (∃ userId content, d.push? = some (userId, content) ∧ event = Service.newKeyEvent userId) ∨
    ∃ userId channelId mode, d.switching? = some (userId, channelId, mode) ∧
      event = Service.modeEvent channelId mode

/-- What a demand may do. -/
def reach (d : Demand) : Reach :=
  ⟨Key.OpenTo d.user?, d.mayWrite, d.mayPublish⟩

/-- **The reach of the service.**  A demand does nothing else. -/
theorem within_program (s : Service) (d : Demand) : (d.program s).Within d.reach := by
  have hmodes (channelId : String) : d.reach.reads (Key.mode channelId) := Key.openTo_mode channelId
  have hpairs (userId : String) : d.reach.reads (Key.pubkey userId) := Key.openTo_pubkey userId
  cases d with
  | activate => exact .map s.within_activate
  | push userId content =>
    refine .map (s.within_pushKeys (fun hvalid => ?_) (fun _ => .inr rfl)
      (Key.openTo_backup userId) (.inl ⟨userId, content, rfl, rfl⟩))
    exact .inl ⟨rfl, hvalid, rfl⟩
  | mailBackup userId => exact .map (s.within_mailBackup (Key.openTo_backup userId))
  | keysOf userIds => exact .map (s.within_keysOf fun userId _ => hpairs userId)
  | channelMode userId channelId => exact .map (s.within_channelMode userId (hmodes channelId))
  | changeMode userId channelId mode =>
    refine .map (s.within_changeMode userId (hmodes channelId) ⟨rfl, rfl⟩ hpairs ?_)
    exact .inr ⟨userId, channelId, mode, rfl, rfl⟩
  | gpgKeyOf userId => exact .map (s.within_gpgKeyOf userId)
  | judge post => exact .map (s.within_judge (hmodes post.channelId))
  | execute call => exact .map (s.within_execute (Key.openTo_backup call.userId))
  | answer request => exact .map (Http.Api.within_serve s request)
  | setMode modes channelId mode =>
    exact .map (modes.within_setIfDifferent (hmodes channelId) ⟨rfl, rfl⟩)

/-- **The footprint of the service.**  A demand makes no other writes. -/
theorem writes_program (s : Service) (d : Demand) : (d.program s).Writes d.mayWrite :=
  (d.within_program s).writes

/-- The key of a key pair is written by a push only, and only after the check. -/
theorem of_mayWrite_pubkey {d : Demand} {userId : String} {value : Option Bytes}
    (h : d.mayWrite (Key.pubkey userId) value) :
    ∃ content, d.push? = some (userId, content) ∧ content.pair.isValid = true ∧
      value = some content.pair.encode := by
  cases d with
  | push other content =>
    rcases h with ⟨hkey, hvalid, hvalue⟩ | hkey
    · obtain rfl := Key.pubkey_inj.1 hkey
      exact ⟨content, rfl, hvalid, hvalue⟩
    · exact absurd hkey (Key.pubkey_ne_backup userId other)
  | answer request => exact Http.Request.push?_of_mayWrite h
  | changeMode other channelId mode => exact absurd h.1 (Key.pubkey_ne_mode userId channelId)
  | setMode modes channelId mode => exact absurd h.1 (Key.pubkey_ne_mode userId channelId)
  | _ => exact h.elim

/-- The key of a mode is written by a change of the mode of its channel only. -/
theorem of_mayWrite_mode {d : Demand} {channelId : String} {value : Option Bytes}
    (h : d.mayWrite (Key.mode channelId) value) :
    (∃ userId mode, d.switching? = some (userId, channelId, mode)) ∨
      ∃ modes mode, d = .setMode modes channelId mode := by
  cases d with
  | push userId content =>
    rcases h with ⟨hkey, -⟩ | hkey
    · exact absurd hkey.symm (Key.pubkey_ne_mode userId channelId)
    · exact absurd hkey.symm (Key.backup_ne_mode userId channelId)
  | answer request => exact .inl (Http.Request.switch?_of_mayWrite h)
  | changeMode userId other mode =>
    obtain rfl := Key.mode_inj.1 h.1
    exact .inl ⟨userId, mode, rfl⟩
  | setMode modes other mode =>
    obtain rfl := Key.mode_inj.1 h.1
    exact .inr ⟨modes, mode, rfl⟩
  | _ => exact h.elim

end Demand

/-! ## Jobs -/

/-- A demand on a service. -/
structure Job where
  service : Service
  demand : Demand

/-- The program of a job, which is the same in every process. -/
def Job.program (_ : Nat) (job : Job) : Program Reply :=
  job.demand.program job.service

end SealedChannel
