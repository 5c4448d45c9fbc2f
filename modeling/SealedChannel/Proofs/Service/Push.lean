import SealedChannel.Proofs.Program.Course
import SealedChannel.Proofs.Program.Delivery
import SealedChannel.Proofs.Storage.Key
import SealedChannel.Proofs.Text.Utf8
import SealedChannel.Service.Keys

/-!
# The order of a push

A push checks and stores the key pair, tells the other users, brings the backup up to date, and
mails it.  It may stop at each of these calls, and each of them may meet other conditions than the
one before: a store that has taken the key pair may refuse the backup.  Still nobody is told of a
key pair, and no backup is touched, before the key pair is stored, and no backup is mailed before it
is stored.

## What is here

* `Service.pushCourse`, `Service.takes_pushKeys` — the calls of a push, in their order.
* `PushEnds` — how a push ends, wherever it stops.
* `Service.pushEnds_runAmid` — every run of a push ends like this, in any weather.
-/

set_option autoImplicit false
namespace SealedChannel

/-- A call was made and has succeeded. -/
def Call.SucceedsIn (call : Call) (exchanges : List Exchange) : Prop :=
  ∃ e ∈ exchanges, e.call = call ∧ e.succeeded = true

namespace Service

open Program Operation

/-! ## The course of a push -/

/-- The call that stores the key pair of a user. -/
def keyCall (s : Service) (userId : String) (pair : KeyPair) : Call :=
  .store s.limit (.set (Key.pubkey userId) pair.encode)

/-- The call that stores the backup of a user, or removes it. -/
def backupCall (s : Service) (userId : String) : Option String → Call
  | none => .store s.limit (.delete (Key.backup userId))
  | some backup => .store s.limit (.set (Key.backup userId) (Bytes.ofText backup))

theorem target?_backupCall (s : Service) (userId : String) (backup? : Option String) :
    (s.backupCall userId backup?).target? =
      some (Key.backup userId, backup?.map Bytes.ofText) := by
  cases backup? <;> rfl

/-- The call that mails a backup. -/
def mailCall (user : User) (backup : String) : Call :=
  .host (.sendMail user.email "Mattermost E2EE private key backup" ("<pre>" ++ backup ++ "</pre>"))

/-- The calls behind the mail of a backup.  To a user without an account nothing is mailed. -/
def mailCourse (s : Service) (userId backup : String) : Option User → List Stage
  | none => [⟨.host (.getUser userId), true⟩]
  | some user =>
    [⟨.host (.getUser userId), true⟩, ⟨.store s.limit (.get (Key.backup userId)), true⟩,
      ⟨mailCall user backup, true⟩]

/-- The calls that store what is pushed.  That the event could not be published stops nothing. -/
def storeCourse (s : Service) (userId : String) (push : KeyPush) : List Stage :=
  [⟨s.keyCall userId push.pair, true⟩, ⟨.host (.publishEvent (newKeyEvent userId)), false⟩,
    ⟨s.backupCall userId push.backup, true⟩]

/-- The calls behind a push. -/
def pushCourse (s : Service) (userId : String) (push : KeyPush) (account? : Option User) :
    List Stage :=
  s.storeCourse userId push ++
  match push.backup with
  | none => []
  | some backup => s.mailCourse userId backup account?

variable {t : Moment} {userId : String} {push : KeyPush}

/-- The mail of a backup that is stored. -/
theorem takes_mailBackup (s : Service) (climate : Climate) (limit : Option Duration)
    {backup : String}
    (hbackup : t.world.store.get? (Key.backup userId) = some (Bytes.ofText backup)) :
    (s.mailBackup userId).Takes climate limit
      (s.mailCourse userId backup (t.world.host.user? userId))
      (fun _ _ => t.world.host.user? userId ≠ none) t := by
  have hask := (takes_host climate limit t (.getUser userId)).wrap ServiceError.host
  rw [mailBackup]
  cases huser : t.world.host.user? userId with
  | none =>
    refine hask.bind_nil fun user t' h => ?_
    obtain ⟨w, hw, -, hcall⟩ := h
    rw [← hw.host.user? userId, Host.user?_of_call hcall] at huser
    cases huser
  | some user =>
    refine hask.bind fun other t' h => ?_
    obtain ⟨w, hw, hstore, hcall⟩ := h
    have hother : w.host.user? userId = some user := (hw.host.user? userId).trans huser
    obtain rfl : user = other := Option.some.inj (hother.symm.trans (Host.user?_of_call hcall))
    have hread : (Backups.get s.limit userId).Takes climate limit
        [⟨.store s.limit (.get (Key.backup userId)), true⟩]
        (fun answer _ => answer = some backup) t' := by
      refine (takes_store climate limit t' s.limit (.get (Key.backup userId))).bind_nil
        fun raw t'' h => takes_pure ?_
      obtain ⟨w', hw', -, hget⟩ := h
      rw [Store.call_get (congrArg Prod.fst hget), hw'.get?, hstore, hw.get?, hbackup]
      exact congrArg some (Utf8.decodeLossy_ofText backup)
    refine (hread.wrap ServiceError.store).bind fun answer t'' h => ?_
    subst h
    have hmail := (takes_host climate limit t'' (.sendMail user.email
      "Mattermost E2EE private key backup" ("<pre>" ++ backup ++ "</pre>"))).wrap
        ServiceError.backupMail
    exact hmail.imp fun _ _ _ => Option.some_ne_none user

/-- A backup that was stored is there. -/
theorem takes_storeBackup (s : Service) (climate : Climate) (limit : Option Duration)
    (backup : String) (hw : t.world.store.Spares (Key.backup userId)) :
    (wrap ServiceError.store (Backups.store s.limit userId backup)).Takes climate limit
      [⟨s.backupCall userId (some backup), true⟩]
      (fun _ w => w.host.user? userId = t.world.host.user? userId ∧
        w.store.get? (Key.backup userId) = some (Bytes.ofText backup)) t := by
  have hset := takes_store climate limit t s.limit (.set (Key.backup userId) (Bytes.ofText backup))
  refine (hset.wrap ServiceError.store).imp fun _ w' h => ?_
  obtain ⟨w, hturns, hhost, hcall⟩ := h
  have hget := Store.get?_call (hturns.spares hw) (some s.limit)
    (.set (Key.backup userId) (Bytes.ofText backup))
  rw [hcall] at hget
  refine ⟨by rw [hhost]; exact hturns.host.user? userId, ?_⟩
  simpa [StoreCall.effectOn?, StoreCall.target?, StoreCall.tookEffect, Except.isOk,
    Except.toBool] using hget

/-- **The course of a push.**  A push of a pair that passes the check takes its course, and succeeds
with a backup only for a user with an account. -/
theorem takes_pushKeys (s : Service) (climate : Climate) (limit : Option Duration)
    (hbackup : t.world.store.Spares (Key.backup userId)) (hvalid : push.pair.isValid = true) :
    (s.pushKeys userId push).Takes climate limit
      (s.pushCourse userId push (t.world.host.user? userId))
      (fun _ _ => push.backup ≠ none → t.world.host.user? userId ≠ none) t := by
  rw [pushKeys, pushCourse, storeCourse]
  cases hcheck : push.pair.check with
  | error cause =>
    rw [KeyPair.isValid, hcheck] at hvalid
    cases hvalid
  | ok points =>
    have hset := takes_store climate limit t s.limit (.set (Key.pubkey userId) push.pair.encode)
    refine ((hset.wrap .store).wrap ServiceError.publicKey).bind fun _ t₁ h₁ => ?_
    obtain ⟨w₁, hw₁, hhost, hcall⟩ := h₁
    refine (takes_attempt_host climate limit t₁ (.publishEvent (newKeyEvent userId))).bind
      fun _ t₂ h₂ => ?_
    obtain ⟨w₂, hw₂, hstore, hpublish⟩ := h₂
    -- whose account it is and where the backup goes is as it was before the push
    have haccount : t₂.world.host.user? userId = t.world.host.user? userId := by
      rw [Host.user?_publishEvent hpublish userId, hw₂.host.user?, hhost, hw₁.host.user?]
    have hspares : t₂.world.store.Spares (Key.backup userId) := by
      have hafter := (hw₁.spares hbackup).call (some s.limit)
        (.set (Key.pubkey userId) push.pair.encode)
      rw [hcall] at hafter
      rw [hstore]
      exact hw₂.spares hafter
    cases push.backup with
    | none =>
      have hdelete := takes_store climate limit t₂ s.limit (.delete (Key.backup userId))
      exact (hdelete.wrap ServiceError.store).imp fun _ _ _ hnone => absurd rfl hnone
    | some backup =>
      refine (s.takes_storeBackup climate limit backup hspares).bind fun _ t₃ h₃ => ?_
      have hmail := s.takes_mailBackup climate limit h₃.2
      rw [h₃.1, haccount] at hmail
      exact hmail.imp fun _ _ h _ => h

end Service

/-! ## How a push ends -/

open Service in
/-- How the push of a key pair for a user ends, wherever it stops: from the world before it, by its
exchanges, to the world after it. -/
structure PushEnds (s : Service) (userId : String) (push : KeyPush) (w : World)
    (exchanges : List Exchange) (w' : World) (succeeded : Prop) : Prop where
  /-- A pair that does not pass the check leads to no call. -/
  unchecked : push.pair.isValid = false → exchanges = []
  /-- Before a backup is touched or an event published, the key pair is stored. -/
  stored_first : w'.store.get? (Key.backup userId) ≠ w.store.get? (Key.backup userId) ∨
      w'.host.events ≠ w.host.events →
    w'.store.get? (Key.pubkey userId) = some push.pair.encode
  /-- At most one event is published, to all users but the one whose key pair it is. -/
  event : w'.host.events = w.host.events ∨ w'.host.events = w.host.events ++
    [⟨"newPubkey", .record [("userID", .ofText userId)], .everyoneExcept userId⟩]
  /-- At most one mail is sent: the backup of the push, once it is stored, to the address that the
  platform has for the user. -/
  mail : w'.host.mails = w.host.mails ∨ ∃ backup user,
    push.backup = some backup ∧ w'.store.get? (Key.backup userId) = some (Bytes.ofText backup) ∧
    w.host.user? userId = some user ∧ w'.host.mails = w.host.mails ++
      [⟨user.email, "Mattermost E2EE private key backup", "<pre>" ++ backup ++ "</pre>"⟩]
  /-- The push succeeds if and only if the pair passes the check and all calls succeed but that for
  the event. -/
  succeeded_iff : succeeded ↔ push.pair.isValid = true ∧
    (s.keyCall userId push.pair).SucceedsIn exchanges ∧
    (s.backupCall userId push.backup).SucceedsIn exchanges ∧
    ∀ backup, push.backup = some backup →
      (Call.host (.getUser userId)).SucceedsIn exchanges ∧
      (Call.store s.limit (.get (Key.backup userId))).SucceedsIn exchanges ∧
      ∃ user, w.host.user? userId = some user ∧ (mailCall user backup).SucceedsIn exchanges
  /-- A push that has succeeded has stored the key pair, and the backup or none. -/
  stored : succeeded → w'.store.get? (Key.pubkey userId) = some push.pair.encode ∧
    w'.store.get? (Key.backup userId) = push.backup.map Bytes.ofText

namespace PushCourse

open Service

variable {s : Service} {userId : String} {push : KeyPush} {w w' : World}
  {exchanges : List Exchange} {succeeds : Bool}

/-- No call of a push is made twice. -/
theorem nodup (s : Service) (userId : String) (push : KeyPush)
    (account? : Option User) :
    ((s.pushCourse userId push account?).map Stage.call).Nodup := by
  rw [pushCourse, storeCourse]
  cases push.backup with
  | none => simp [keyCall, backupCall]
  | some backup => cases account? <;> simp [keyCall, backupCall, mailCourse, mailCall]

variable (hcourse : Course (s.pushCourse userId push (w.host.user? userId)) exchanges succeeds)
include hcourse

/-- The calls of a push. -/
theorem call_cases {e : Exchange} (he : e ∈ exchanges) :
    e.call = s.keyCall userId push.pair ∨ e.call = .host (.publishEvent (newKeyEvent userId)) ∨
      e.call = s.backupCall userId push.backup ∨ e.call = .host (.getUser userId) ∨
      e.call = .store s.limit (.get (Key.backup userId)) ∨
      ∃ backup user, push.backup = some backup ∧ w.host.user? userId = some user ∧
        e.call = mailCall user backup := by
  obtain ⟨stage, hstage, hcall⟩ := hcourse.call_mem he
  rw [hcall]
  rw [pushCourse, storeCourse, List.mem_append] at hstage
  rcases hstage with hstage | hstage
  · simp only [List.mem_cons, List.not_mem_nil, or_false] at hstage
    rcases hstage with rfl | rfl | rfl <;> simp
  · cases hpush : push.backup with
    | none => rw [hpush] at hstage; cases hstage
    | some backup =>
      rw [hpush] at hstage
      cases haccount : w.host.user? userId with
      | none =>
        rw [haccount] at hstage
        obtain rfl := List.mem_singleton.1 hstage
        simp
      | some user =>
        rw [haccount] at hstage
        simp only [mailCourse, List.mem_cons, List.not_mem_nil, or_false] at hstage
        rcases hstage with rfl | rfl | rfl <;> simp

/-- What a push may write under the key of its key pair. -/
theorem eq_of_target?_pubkey {e : Exchange} (he : e ∈ exchanges) {value : Option Bytes}
    (h : e.call.target? = some (Key.pubkey userId, value)) : value = some push.pair.encode := by
  rcases call_cases hcourse he with hcall | hcall | hcall | hcall | hcall | ⟨_, _, -, -, hcall⟩
  · rw [hcall] at h
    exact (Prod.mk.inj (Option.some.inj h)).2.symm
  · rw [hcall] at h; cases h
  · rw [hcall, target?_backupCall] at h
    exact absurd (Prod.mk.inj (Option.some.inj h)).1.symm (Key.pubkey_ne_backup userId userId)
  all_goals rw [hcall] at h; cases h

/-- What a push may write under the key of its backup. -/
theorem eq_of_target?_backup {e : Exchange} (he : e ∈ exchanges) {value : Option Bytes}
    (h : e.call.target? = some (Key.backup userId, value)) :
    value = push.backup.map Bytes.ofText := by
  rcases call_cases hcourse he with hcall | hcall | hcall | hcall | hcall | ⟨_, _, -, -, hcall⟩
  · rw [hcall] at h
    exact absurd (Prod.mk.inj (Option.some.inj h)).1 (Key.pubkey_ne_backup userId userId)
  · rw [hcall] at h; cases h
  · rw [hcall, target?_backupCall] at h
    exact (Prod.mk.inj (Option.some.inj h)).2.symm
  all_goals rw [hcall] at h; cases h

/-- Nothing is published but the event of the key pair. -/
theorem eq_of_event? {e : Exchange} {event : Event} (he : e ∈ exchanges)
    (h : e.event? = some event) :
    e.call = .host (.publishEvent (newKeyEvent userId)) ∧ event = newKeyEvent userId := by
  have hevent := Exchange.call_of_event? h
  rcases call_cases hcourse he with hcall | hcall | hcall | hcall | hcall | ⟨_, _, -, -, hcall⟩
  · rw [hcall] at hevent; cases hevent
  · rw [hcall] at hevent
    exact ⟨hcall, (Option.some.inj hevent).symm⟩
  · rw [hcall] at hevent
    cases hpush : push.backup <;> (rw [hpush] at hevent; cases hevent)
  all_goals rw [hcall] at hevent; cases hevent

/-- Nothing is mailed but the backup. -/
theorem eq_of_mail? {e : Exchange} {mail : Mail} (he : e ∈ exchanges) (h : e.mail? = some mail) :
    ∃ backup user, push.backup = some backup ∧ w.host.user? userId = some user ∧
      e.call = mailCall user backup ∧ mail =
        ⟨user.email, "Mattermost E2EE private key backup", "<pre>" ++ backup ++ "</pre>"⟩ := by
  have hmail := Exchange.call_of_mail? h
  rcases call_cases hcourse he with hcall | hcall | hcall | hcall | hcall |
    ⟨backup, user, hpush, huser, hcall⟩
  · cases hcall.symm.trans hmail
  · cases hcall.symm.trans hmail
  · cases hpush : push.backup <;> (rw [hpush] at hcall; cases hcall.symm.trans hmail)
  · cases hcall.symm.trans hmail
  · cases hcall.symm.trans hmail
  · refine ⟨backup, user, hpush, huser, hcall, ?_⟩
    have hsame := hcall.symm.trans hmail
    simp only [mailCall, Call.host.injEq, HostCall.sendMail.injEq] at hsame
    obtain ⟨hrecipient, hsubject, hbody⟩ := hsame
    rw [hrecipient, hsubject, hbody]

/-- The key pair is stored before any other call is made. -/
theorem keyCall_succeedsIn {e : Exchange} (he : e ∈ exchanges)
    (hne : e.call ≠ s.keyCall userId push.pair) :
    (s.keyCall userId push.pair).SucceedsIn exchanges :=
  hcourse.passed_before [⟨s.keyCall userId push.pair, true⟩] he (by simpa using hne) _
    List.mem_cons_self

/-- Before a backup is mailed, all other calls have succeeded but that for the event. -/
theorem succeedsIn_of_mailCall {backup : String} {user : User} (hpush : push.backup = some backup)
    (huser : w.host.user? userId = some user) {e : Exchange} (he : e ∈ exchanges)
    (hcall : e.call = mailCall user backup) :
    (s.keyCall userId push.pair).SucceedsIn exchanges ∧
      (s.backupCall userId push.backup).SucceedsIn exchanges ∧
      (Call.host (.getUser userId)).SucceedsIn exchanges ∧
      (Call.store s.limit (.get (Key.backup userId))).SucceedsIn exchanges := by
  rw [pushCourse, hpush, huser] at hcourse
  have hpassed := hcourse.passed_before (s.storeCourse userId push ++
    [⟨.host (.getUser userId), true⟩, ⟨.store s.limit (.get (Key.backup userId)), true⟩]) he (by
      rw [hcall]
      simp [storeCourse, mailCall, keyCall, backupCall, hpush])
  simp only [storeCourse, List.cons_append, List.nil_append, List.forall_mem_cons] at hpassed
  obtain ⟨hkey, -, hbackup, huser, hread, -⟩ := hpassed
  exact ⟨hkey, hbackup, huser, hread⟩

section Store

variable (htold : w.ToldBy exchanges w')
include htold

/-- A key pair that was stored is there in the end. -/
theorem get?_pubkey_of_keyCall (hw : w.store.Spares (Key.pubkey userId))
    (h : (s.keyCall userId push.pair).SucceedsIn exchanges) :
    w'.store.get? (Key.pubkey userId) = some push.pair.encode := by
  obtain ⟨e, he, hcall, hsucceeded⟩ := h
  refine htold.get?_of_succeeded hw ⟨e, he, ?_⟩ fun e he value htarget => ?_
  · exact Exchange.effectOn?_of_succeeded hcall (fun _ => rfl) rfl hsucceeded
  · exact eq_of_target?_pubkey hcourse he htarget

/-- So is a backup, or none if it was removed. -/
theorem get?_backup_of_backupCall (hw : w.store.Spares (Key.backup userId))
    (h : (s.backupCall userId push.backup).SucceedsIn exchanges) :
    w'.store.get? (Key.backup userId) = push.backup.map Bytes.ofText := by
  obtain ⟨e, he, hcall, hsucceeded⟩ := h
  refine htold.get?_of_succeeded hw ⟨e, he, ?_⟩ fun e he value htarget => ?_
  · cases hpush : push.backup with
    | none =>
      rw [hpush] at hcall
      exact Exchange.effectOn?_of_succeeded hcall (fun _ => rfl) rfl hsucceeded
    | some backup =>
      rw [hpush] at hcall
      exact Exchange.effectOn?_of_succeeded hcall (fun _ => rfl) rfl hsucceeded
  · exact eq_of_target?_backup hcourse he htarget

end Store

/-- A push with a backup succeeds if and only if the backup was mailed. -/
theorem succeeds_iff_mailCall {backup : String} {user : User} (hpush : push.backup = some backup)
    (huser : w.host.user? userId = some user) :
    succeeds = true ↔ (mailCall user backup).SucceedsIn exchanges := by
  have hnodup := nodup s userId push (some user)
  rw [pushCourse, hpush] at hnodup
  rw [pushCourse, hpush, huser] at hcourse
  exact hcourse.succeeds_iff (s.storeCourse userId push ++
    [⟨.host (.getUser userId), true⟩, ⟨.store s.limit (.get (Key.backup userId)), true⟩]) hnodup

/-- A push without a backup succeeds if and only if an earlier backup was removed. -/
theorem succeeds_iff_backupCall (hpush : push.backup = none) :
    succeeds = true ↔ (s.backupCall userId push.backup).SucceedsIn exchanges := by
  have hnodup := nodup s userId push none
  rw [pushCourse, hpush, List.append_nil] at hcourse hnodup
  exact hcourse.succeeds_iff [⟨s.keyCall userId push.pair, true⟩,
    ⟨.host (.publishEvent (newKeyEvent userId)), false⟩] hnodup

/-- What is published is at most the event of the key pair. -/
theorem events :
    exchanges.filterMap Exchange.event? = [] ∨
      exchanges.filterMap Exchange.event? = [newKeyEvent userId] := by
  refine (Exchange.told_once (hcourse.nodup (nodup s userId push _))
    fun e he e' he' _ _ h h' => ?_).imp_right ?_
  · rw [(eq_of_event? hcourse he h).1, (eq_of_event? hcourse he' h').1]
  · rintro ⟨e, he, event, hevent, hevents⟩
    rw [hevents, (eq_of_event? hcourse he hevent).2]

/-- What is mailed is at most the backup, and then the backup was stored. -/
theorem mails :
    exchanges.filterMap Exchange.mail? = [] ∨ ∃ backup user,
      push.backup = some backup ∧ w.host.user? userId = some user ∧
      (s.backupCall userId push.backup).SucceedsIn exchanges ∧
      exchanges.filterMap Exchange.mail? =
        [⟨user.email, "Mattermost E2EE private key backup", "<pre>" ++ backup ++ "</pre>"⟩] := by
  refine (Exchange.told_once (hcourse.nodup (nodup s userId push _))
    fun e he e' he' _ _ h h' => ?_).imp_right ?_
  · obtain ⟨backup, user, hpush, huser, hcall, -⟩ := eq_of_mail? hcourse he h
    obtain ⟨other, user', hpush', huser', hcall', -⟩ := eq_of_mail? hcourse he' h'
    obtain rfl := Option.some.inj (hpush.symm.trans hpush')
    obtain rfl := Option.some.inj (huser.symm.trans huser')
    rw [hcall, hcall']
  · rintro ⟨e, he, mail, hmail, hmails⟩
    obtain ⟨backup, user, hpush, huser, hcall, rfl⟩ := eq_of_mail? hcourse he hmail
    have hbefore := succeedsIn_of_mailCall hcourse hpush huser he hcall
    exact ⟨backup, user, hpush, huser, hbefore.2.1, hmails⟩

/-- Once a backup is touched or an event published, the key pair is stored. -/
theorem keyCall_of_ne (htold : w.ToldBy exchanges w') (hw : w.store.Spares (Key.backup userId))
    (h : w'.store.get? (Key.backup userId) ≠ w.store.get? (Key.backup userId) ∨
      w'.host.events ≠ w.host.events) : (s.keyCall userId push.pair).SucceedsIn exchanges := by
  rcases h with h | h
  · cases hlast : Exchange.lastEffect? (Key.backup userId) exchanges with
    | none =>
      rw [htold.get? hw, hlast] at h
      exact absurd rfl h
    | some value =>
      -- some call has touched the backup, and that is not the one for the key pair
      obtain ⟨e, he, heffect⟩ := Exchange.exists_of_lastEffect? hlast
      refine keyCall_succeedsIn hcourse he fun hcall => ?_
      have htarget := Exchange.target?_of_effectOn? heffect
      rw [hcall] at htarget
      exact Key.pubkey_ne_backup userId userId (Prod.mk.inj (Option.some.inj htarget)).1
  · rw [htold.events] at h
    obtain ⟨event, hevent⟩ := List.exists_mem_of_ne_nil (exchanges.filterMap Exchange.event?)
      fun hnil => h (by rw [hnil, List.append_nil])
    obtain ⟨e, he, hevent⟩ := List.mem_filterMap.1 hevent
    refine keyCall_succeedsIn hcourse he fun hcall => ?_
    rw [(eq_of_event? hcourse he hevent).1] at hcall
    cases hcall

/-- A push succeeds if and only if all of its calls succeed but that for the event. -/
theorem succeeds_iff
    (haccount : succeeds = true → push.backup ≠ none → w.host.user? userId ≠ none) :
    succeeds = true ↔ (s.keyCall userId push.pair).SucceedsIn exchanges ∧
      (s.backupCall userId push.backup).SucceedsIn exchanges ∧
      ∀ backup, push.backup = some backup →
        (Call.host (.getUser userId)).SucceedsIn exchanges ∧
        (Call.store s.limit (.get (Key.backup userId))).SucceedsIn exchanges ∧
        ∃ user, w.host.user? userId = some user ∧ (mailCall user backup).SucceedsIn exchanges := by
  cases hpush : push.backup with
  | none =>
    have hlast := succeeds_iff_backupCall hcourse hpush
    rw [hpush] at hlast
    rw [hlast]
    refine ⟨fun h => ⟨?_, h, by rintro backup ⟨⟩⟩, fun h => h.2.1⟩
    obtain ⟨e, he, hcall, -⟩ := h
    refine keyCall_succeedsIn hcourse he ?_
    rw [hcall]
    simp [keyCall, backupCall]
  | some backup =>
    cases huser : w.host.user? userId with
    | none =>
      -- without an account there is no call that mails: the course stops at the user
      constructor
      · intro h
        exact absurd huser (haccount h (by rw [hpush]; exact Option.some_ne_none backup))
      · rintro ⟨-, -, hmail⟩
        obtain ⟨-, -, user, hnone, -⟩ := hmail backup rfl
        cases hnone
    | some user =>
      rw [succeeds_iff_mailCall hcourse hpush huser]
      constructor
      · intro hmail
        obtain ⟨e, he, hcall, -⟩ := id hmail
        obtain ⟨hkey, hbackup, hask, hread⟩ := succeedsIn_of_mailCall hcourse hpush huser he hcall
        rw [hpush] at hbackup
        refine ⟨hkey, hbackup, ?_⟩
        rintro _ ⟨⟩
        exact ⟨hask, hread, user, rfl, hmail⟩
      · rintro ⟨-, -, hmail⟩
        obtain ⟨-, -, _, ⟨⟩, hmail⟩ := hmail backup rfl
        exact hmail

/-- A push that takes its course ends as it should. -/
theorem pushEnds (hvalid : push.pair.isValid = true) (htold : w.ToldBy exchanges w')
    (hpubkey : w.store.Spares (Key.pubkey userId)) (hbackup : w.store.Spares (Key.backup userId))
    (haccount : succeeds = true → push.backup ≠ none → w.host.user? userId ≠ none) :
    PushEnds s userId push w exchanges w' (succeeds = true) where
  unchecked h := by rw [hvalid] at h; cases h
  stored_first h := get?_pubkey_of_keyCall hcourse htold hpubkey
    (keyCall_of_ne hcourse htold hbackup h)
  event := by
    rw [htold.events]
    rcases events hcourse with h | h
    · exact .inl (by rw [h, List.append_nil])
    · exact .inr (by rw [h]; rfl)
  mail := by
    rw [htold.mails]
    rcases mails hcourse with h | ⟨backup, user, hpush, huser, hstored, h⟩
    · exact .inl (by rw [h, List.append_nil])
    · have hvalue := get?_backup_of_backupCall hcourse htold hbackup hstored
      rw [hpush] at hvalue
      exact .inr ⟨backup, user, hpush, hvalue, huser, by rw [h]⟩
  succeeded_iff := by rw [succeeds_iff hcourse haccount, and_iff_right hvalid]
  stored h := by
    obtain ⟨hkey, hkept, -⟩ := (succeeds_iff hcourse haccount).1 h
    exact ⟨get?_pubkey_of_keyCall hcourse htold hpubkey hkey,
      get?_backup_of_backupCall hcourse htold hbackup hkept⟩

end PushCourse

namespace Service

variable (weather : Weather) (limit : Option Duration) {w : World}

/-- A push of a pair that does not pass the check comes to its end at once. -/
theorem pushKeys_of_invalid (s : Service) (userId : String) {push : KeyPush}
    (hinvalid : push.pair.isValid = false) :
    ∃ e, (s.pushKeys userId push).run = .done (.error e) := by
  rw [pushKeys]
  cases hcheck : push.pair.check with
  | error cause => exact ⟨.invalidKey cause, rfl⟩
  | ok points =>
    rw [KeyPair.isValid, hcheck] at hinvalid
    cases hinvalid

/-- **The order of a push.**  Every run of a push ends as it should, whatever fails at any of its
calls and wherever it is cut off. -/
theorem pushEnds_runAmid (s : Service) {userId : String} (push : KeyPush)
    (hpubkey : w.store.Spares (Key.pubkey userId)) (hbackup : w.store.Spares (Key.backup userId)) :
    PushEnds s userId push w ((s.pushKeys userId push).run.transcriptAmid weather limit w)
      ((s.pushKeys userId push).run.runAmid weather limit w).2
      (((s.pushKeys userId push).run.runAmid weather limit w).1 = .finished (.ok ())) := by
  cases hvalid : push.pair.isValid with
  | false =>
    obtain ⟨e, hpush⟩ := s.pushKeys_of_invalid userId hvalid
    rw [hpush]
    exact {
      unchecked := fun _ => rfl
      stored_first := fun h => absurd h (not_or.2 ⟨not_not_intro rfl, not_not_intro rfl⟩)
      event := .inl rfl
      mail := .inl rfl
      succeeded_iff := ⟨by rintro ⟨⟩, fun h => absurd (hvalid.symm.trans h.1) Bool.false_ne_true⟩
      stored := by rintro ⟨⟩ }
  | true =>
    obtain ⟨succeeds, hcourse, hsucceeds, haccount⟩ :=
      (s.takes_pushKeys weather.climate limit (t := .start w) hbackup hvalid).of_runAmid fun _ => id
    have hfinished : (succeeds = true) =
        (((s.pushKeys userId push).run.runAmid weather limit w).1 = .finished (.ok ())) :=
      propext (hsucceeds.trans ⟨fun ⟨_, h⟩ => h, fun h => ⟨(), h⟩⟩)
    rw [← hfinished]
    have htold := Program.toldBy_runAmid weather limit (s.pushKeys userId push).run w
    refine PushCourse.pushEnds hcourse hvalid htold hpubkey hbackup fun h => ?_
    exact haccount () (hfinished.mp h)

end Service

end SealedChannel
