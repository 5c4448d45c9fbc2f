import SealedChannel.Proofs.Http.Authority
import SealedChannel.Proofs.Service.KeyIntegrity
import SealedChannel.Proofs.Service.Push
import SealedChannel.Proofs.Service.WireForms

/-!
# Pushes by operation and by request

A request that publishes a key pair ends like the push behind it, and its status is 200 if and only
if that push succeeds, however the conditions change from one call to the next.

## What is here

* `Http.Request.push?_of_body` — a push that is written into the body of a request is read back.
* `Service.throws_pushKeys` — the errors of a push.
* `Http.Api.Answers.exchangesAmid`, `Http.Api.Answers.answerAmid` — the calls and the answer of a
  request that is answered by an operation.
* `Http.status_answerAmid_of_push` — the status of a request that publishes a key pair.
* `Http.push_order` — how pushes end.
-/

set_option autoImplicit false
namespace SealedChannel

open Program Operation

/-! ## Requests for a push -/

/-- A request with a push in its body publishes the key pair of that push. -/
theorem Http.Request.push?_of_body {r : Request} {userId : String} {push : KeyPush}
    (hmethod : r.method = "POST") (hpath : r.path = "/api/v1/pubkey/push")
    (huser : r.user? = some userId) (hbody : r.body = Json.print push.toJson)
    (hlimit : r.body.length ≤ Api.bodyLimit) : r.push? = some (userId, push) := by
  refine Request.push?_eq_some_iff.2 ⟨hmethod, hpath, huser, ?_⟩
  rw [Request.read?, if_neg (Nat.not_lt.2 hlimit), hbody]
  exact KeyPush.readsBack_wire.decode?_encode push

/-! ## Errors of a push -/

/-- Whether an error comes from a key server. -/
def ServiceError.isOfKeyServer : ServiceError → Bool
  | .keyServer _ _ => true
  | _ => false

/-- Only a key server can give an error the status of a success. -/
theorem Http.Api.statusOf_ne_200 {e : ServiceError} (h : e.isOfKeyServer = false) :
    statusOf e ≠ 200 := by
  cases e with
  | keyServer email cause => cases h
  | _ => simp [statusOf]

namespace Service

/-- No error of a push comes from a key server. -/
theorem throws_pushKeys (s : Service) (userId : String) (push : KeyPush) :
    (s.pushKeys userId push).Throws fun e => e.isOfKeyServer = false := by
  have hmail : (s.mailBackup userId).Throws fun e => e.isOfKeyServer = false := by
    rw [mailBackup]
    refine .bind (throws_wrap (fun _ => by rfl) _) fun user => ?_
    refine .bind (throws_wrap (fun _ => by rfl) _) fun backup => ?_
    cases backup with
    | none => exact throws_throw rfl
    | some backup => exact throws_wrap (fun _ => by rfl) _
  rw [pushKeys]
  cases push.pair.check with
  | error cause => exact throws_throw rfl
  | ok points =>
    refine .bind (throws_wrap (fun _ => by rfl) _) fun _ => ?_
    refine .bind (throws_attempt _) fun _ => ?_
    cases push.backup with
    | none => exact throws_wrap (fun _ => by rfl) _
    | some backup => exact .bind (throws_wrap (fun _ => by rfl) _) fun _ => hmail

end Service

namespace Http

namespace Api

variable {α : Type} {s : Service} {r : Request} {route : Route} {success : α → Response}
  {op : Operation ServiceError α}

/-- The calls behind a request that is answered by an operation are those of the operation. -/
theorem Answers.exchangesAmid (h : Answers s r route success op) (weather : Weather) (w : World) :
    Http.exchangesAmid weather s r w = op.run.transcriptAmid weather (some deadline) w := by
  rw [Http.exchangesAmid, h.ofPath]
  dsimp only
  rw [h.respond, respondWith_eq, transcriptAmid_map]

/-- Its answer tells how the operation has ended. -/
theorem Answers.answerAmid (h : Answers s r route success op) (weather : Weather) (w : World) :
    Http.answerAmid weather s r w =
      (responseTo ((op.run.runAmid weather (some deadline) w).1.map (response success)),
        (op.run.runAmid weather (some deadline) w).2) := by
  rw [Http.answerAmid, h.ofPath]
  dsimp only
  rw [h.respond, respondWith_eq, runAmid_map, h.finish]
  rfl

end Api

variable {s : Service} {r : Request} {userId : String} {push : KeyPush} {w : World}

/-- A request that publishes a key pair is answered with 200 if and only if the push succeeds. -/
theorem status_answerAmid_of_push (h : r.push? = some (userId, push)) (weather : Weather) :
    (answerAmid weather s r w).1.status = 200 ↔
      ((s.pushKeys userId push).run.runAmid weather (some deadline) w).1 = .finished (.ok ()) := by
  have herrors : ∀ result,
      ((s.pushKeys userId push).run.runAmid weather (some deadline) w).1 = .finished result →
        ∀ e, result = .error e → e.isOfKeyServer = false :=
    (Keeps.runAmid (s.throws_pushKeys userId push) fun _ _ _ _ => trivial).2
  rw [(Api.answers_of_push s h).answerAmid]
  cases houtcome : ((s.pushKeys userId push).run.runAmid weather (some deadline) w).1 with
  | finished result =>
    cases result with
    | ok u => exact ⟨fun _ => rfl, fun _ => rfl⟩
    | error e =>
      have hstatus := Api.statusOf_ne_200 (herrors (.error e) houtcome e rfl)
      exact ⟨fun h => absurd h hstatus, by rintro ⟨⟩⟩
  -- a request that is cut off is answered all the same, but not with 200
  | _ => exact ⟨by rintro ⟨⟩, by rintro ⟨⟩⟩

/-- **The order of a push.**  Whatever fails, is slow or crashes at any of its calls, and wherever it
is cut off, a push ends as it should, by operation and by request: a pair that does not pass the
check leads to no call; before the backup is touched or an event published, the key pair is stored;
at most one event is published, and at most one mail sent, of a backup that is stored; and the push
succeeds if and only if all of its calls do but that for the event, and then it has stored what it
was to store. -/
theorem push_order (s : Service) {userId : String} (push : KeyPush) {w : World}
    (hpubkey : w.store.Spares (Key.pubkey userId)) (hbackup : w.store.Spares (Key.backup userId)) :
    (∀ weather limit,
      PushEnds s userId push w ((s.pushKeys userId push).run.transcriptAmid weather limit w)
        ((s.pushKeys userId push).run.runAmid weather limit w).2
        (((s.pushKeys userId push).run.runAmid weather limit w).1 = .finished (.ok ()))) ∧
    ∀ weather, ∀ r : Request, r.push? = some (userId, push) →
      PushEnds s userId push w (exchangesAmid weather s r w) (answerAmid weather s r w).2
        ((answerAmid weather s r w).1.status = 200) := by
  have hends (weather : Weather) (limit : Option Duration) :=
    s.pushEnds_runAmid weather limit push hpubkey hbackup
  refine ⟨hends, fun weather r hr => ?_⟩
  have hanswers := Api.answers_of_push s hr
  rw [propext (status_answerAmid_of_push hr weather), hanswers.exchangesAmid, hanswers.answerAmid]
  exact hends weather (some deadline)

/-- A push with a backup. -/
def backedPush : KeyPush :=
  ⟨KeyIntegrity.smallPair, some "sealed"⟩

/-- The request that asks for it. -/
def pushRequest : Request :=
  ⟨"POST", "/api/v1/pubkey/push", some [0x75], Json.print backedPush.toJson⟩

/-- The user has a backup already. -/
def backedWorld : World :=
  { smallWorld with store := smallWorld.store.seed (Key.backup "u") (Bytes.ofText "older") }

/-- The store takes the key pair, and refuses all writes from the third call on. -/
def backupRefused : Weather :=
  [none, none, some ⟨⟨0⟩, false, true, false, false, false, []⟩]

/-- The answer to the request, and the world after it. -/
def backedAnswer (weather : Weather) : Response × World :=
  answerAmid weather (.new .default true) pushRequest backedWorld

/-- In calm weather the request is answered with 200, and the backup is the new one.  If only the
backup is refused, then the key pair is stored and published all the same, the older backup is kept,
and nothing is mailed. -/
theorem push_order_of_pushRequest :
    (∀ key, backedWorld.store.Spares key) ∧
      ((backedAnswer []).1.status = 200 ∧
        (backedAnswer []).2.store.get? (Key.pubkey "u") = some backedPush.pair.encode ∧
        (backedAnswer []).2.store.get? (Key.backup "u") = some (Bytes.ofText "sealed")) ∧
      (backedAnswer backupRefused).1.status = 500 ∧
        (backedAnswer backupRefused).2.store.get? (Key.pubkey "u")
          = some backedPush.pair.encode ∧
        (backedAnswer backupRefused).2.store.get? (Key.backup "u")
          = some (Bytes.ofText "older") ∧
        (backedAnswer backupRefused).2.host.mails = [] := by
  have hw : ∀ key, backedWorld.store.Spares key := fun key => Store.spares_new false true key
  have hpush : pushRequest.push? = some ("u", backedPush) :=
    Request.push?_of_body rfl rfl rfl rfl (by decide +kernel)
  have hends (weather : Weather) : PushEnds (.new .default true) "u" backedPush backedWorld
      (exchangesAmid weather (.new .default true) pushRequest backedWorld)
      (backedAnswer weather).2 ((backedAnswer weather).1.status = 200) := by
    rw [backedAnswer]
    exact (push_order _ backedPush (hw _) (hw _)).2 weather pushRequest hpush
  have hstatus : (backedAnswer []).1.status = 200 := by
    rw [backedAnswer, (Api.answers_of_push _ hpush).answerAmid]
    decide +kernel
  obtain ⟨hrefused, hpublished, hkept⟩ : (backedAnswer backupRefused).1.status = 500 ∧
      (backedAnswer backupRefused).2.host.events.length = 1 ∧
      (backedAnswer backupRefused).2.store.get? (Key.backup "u")
        = some (Bytes.ofText "older") := by
    rw [backedAnswer, (Api.answers_of_push _ hpush).answerAmid]
    decide +kernel
  have hfirst := (hends backupRefused).stored_first <| .inr fun hnone => by
    rw [hnone] at hpublished
    cases hpublished
  refine ⟨hw, ⟨hstatus, (hends []).stored hstatus⟩, hrefused, hfirst, hkept, ?_⟩
  rcases (hends backupRefused).mail with hnone | ⟨backup, user, hbackup, hstored, -⟩
  · exact hnone
  · -- the backup that would have been mailed is not the one that is stored
    cases hbackup
    exact absurd (hkept.symm.trans hstored) (by decide)

end Http

end SealedChannel
