import SealedChannel.Http.Api
import SealedChannel.Http.Server
import SealedChannel.Proofs.Program.Transcript
import SealedChannel.Proofs.Service.Footprint
import SealedChannel.Proofs.Storage.Key

/-!
# What a request can reach

Routing, the check of the user, and the reading of the body and the query come before any call.
What is left for a request to read, to write and to publish is read off the request alone.

## What is here

* `Request.read?`, `Request.push?`, `Request.switch?` — what is read in the body of a request, what
  it publishes, and the change of a mode that it asks for.
* `Request.mayWrite`, `Request.mayPublish`, `Request.reach` — what a request has authority for.
* `Api.serve` — the program behind a request.
* `Api.within_respond`, `Api.within_serve` — it does nothing else.
* `Api.Answers`, `Api.answers_of_push`, `Api.answers_of_switch` — the operation that answers such a
  request.
* `answerAmid`, `exchanges`, `exchangesAmid` — the response to a request in changing weather, and the
  calls behind one.
* `mayWrite_of_answer_ne` — an answered request has changed nothing else.
-/

set_option autoImplicit false
namespace SealedChannel
namespace Http

open Program

/-! ## What a request asks for -/

/-- What is read in the body of a request, which may not be too large. -/
def Request.read? {α : Type} (r : Request) (read : Json → Option α) : Option α :=
  if Api.bodyLimit < r.body.length then none else (Json.parse? r.body).bind read

/-- The key pair and the backup that a request publishes, with the user for whom it does. -/
def Request.push? (r : Request) : Option (String × KeyPush) :=
  if r.method = "POST" ∧ r.path = "/api/v1/pubkey/push" then
    r.user?.bind fun userId => (r.read? KeyPush.ofJson?).map fun push => (userId, push)
  else none

/-- The change of a mode that a request asks for: on behalf of whom, in which channel, and to which
mode. -/
def Request.switch? (r : Request) : Option (String × String × Mode) :=
  if r.method = "POST" ∧ r.path = "/api/v1/channel/encryption_method" then
    r.user?.bind fun userId => (ChannelQuery.ofQuery r.query).toOption.map fun query =>
      (userId, query.channelId, Mode.ofName query.mode)
  else none

/-- The writes that a request has authority for: those of a push by its user, or that of a change of
the mode of the channel that it names. -/
def Request.mayWrite (r : Request) (key : String) (value : Option Bytes) : Prop :=
  r.method = "POST" ∧ ∃ userId, r.user? = some userId ∧
    ((r.path = "/api/v1/pubkey/push" ∧ ∃ push,
      r.read? KeyPush.ofJson? = some push ∧
      ((key = Key.pubkey userId ∧ push.pair.isValid = true ∧ value = some push.pair.encode) ∨
        key = Key.backup userId)) ∨
    (r.path = "/api/v1/channel/encryption_method" ∧ ∃ query,
      ChannelQuery.ofQuery r.query = .ok query ∧ key = Key.mode query.channelId ∧
        value = some (Mode.ofName query.mode).encode))

/-- The events that a request may publish: that of the key pair that it publishes, and that of the
mode that it asks for. -/
def Request.mayPublish (r : Request) (event : Event) : Prop :=
  (∃ userId push, r.push? = some (userId, push) ∧ event = Service.newKeyEvent userId) ∨
    ∃ userId channelId mode, r.switch? = some (userId, channelId, mode) ∧
      event = Service.modeEvent channelId mode

/-- What a request has authority for. -/
def Request.reach (r : Request) : Reach :=
  ⟨Key.OpenTo r.user?, r.mayWrite, r.mayPublish⟩

/-- A body that is read is not too large, and holds what is read. -/
theorem Request.of_read? {α : Type} {r : Request} {read : Json → Option α} {a : α}
    (h : r.read? read = some a) :
    ¬ Api.bodyLimit < r.body.length ∧ (Json.parse? r.body).bind read = some a := by
  rw [Request.read?] at h
  split at h
  · cases h
  · exact ⟨‹_›, h⟩

theorem Request.push?_eq_some_iff {r : Request} {userId : String} {push : KeyPush} :
    r.push? = some (userId, push) ↔ r.method = "POST" ∧ r.path = "/api/v1/pubkey/push" ∧
      r.user? = some userId ∧ r.read? KeyPush.ofJson? = some push := by
  rw [Request.push?]
  split
  · rename_i hcond
    simp only [Option.bind_eq_some_iff, Option.map_eq_some_iff, Prod.mk.injEq, hcond, true_and]
    constructor
    · rintro ⟨_, huser, _, hread, rfl, rfl⟩
      exact ⟨huser, hread⟩
    · rintro ⟨huser, hread⟩
      exact ⟨userId, huser, push, hread, rfl, rfl⟩
  · rename_i hcond
    refine ⟨fun h => (by cases h), fun h => absurd ⟨h.1, h.2.1⟩ hcond⟩

theorem Request.switch?_eq_some_iff {r : Request} {userId channelId : String} {mode : Mode} :
    r.switch? = some (userId, channelId, mode) ↔
      r.method = "POST" ∧ r.path = "/api/v1/channel/encryption_method" ∧
      r.user? = some userId ∧ ∃ query, ChannelQuery.ofQuery r.query = .ok query ∧
        channelId = query.channelId ∧ mode = Mode.ofName query.mode := by
  rw [Request.switch?]
  split
  · rename_i hcond
    simp only [Option.bind_eq_some_iff, Option.map_eq_some_iff, Prod.mk.injEq, hcond, true_and]
    cases ChannelQuery.ofQuery r.query with
    | ok query =>
      constructor
      · rintro ⟨_, huser, _, ⟨⟩, rfl, rfl, rfl⟩
        exact ⟨huser, query, rfl, rfl, rfl⟩
      · rintro ⟨huser, _, ⟨⟩, rfl, rfl⟩
        exact ⟨userId, huser, query, rfl, rfl, rfl, rfl⟩
    | error name =>
      constructor
      · rintro ⟨_, -, _, ⟨⟩, -⟩
      · rintro ⟨-, _, ⟨⟩, -⟩
  · rename_i hcond
    exact ⟨fun h => (by cases h), fun h => absurd ⟨h.1, h.2.1⟩ hcond⟩

/-- A request that writes the key pair of a user publishes it for that user. -/
theorem Request.push?_of_mayWrite {r : Request} {userId : String} {value : Option Bytes}
    (h : r.mayWrite (Key.pubkey userId) value) :
    ∃ push, r.push? = some (userId, push) ∧ push.pair.isValid = true ∧
      value = some push.pair.encode := by
  obtain ⟨hmethod, user, huser, ⟨hpath, push, hpush, hkey⟩ | ⟨-, query, -, hkey, -⟩⟩ := h
  · rcases hkey with ⟨hkey, hvalid, hvalue⟩ | hkey
    · obtain rfl := Key.pubkey_inj.1 hkey
      exact ⟨push, Request.push?_eq_some_iff.2 ⟨hmethod, hpath, huser, hpush⟩, hvalid, hvalue⟩
    · exact absurd hkey (Key.pubkey_ne_backup userId user)
  · exact absurd hkey (Key.pubkey_ne_mode userId query.channelId)

/-- A request that writes the mode of a channel asks for a change in that channel. -/
theorem Request.switch?_of_mayWrite {r : Request} {channelId : String} {value : Option Bytes}
    (h : r.mayWrite (Key.mode channelId) value) :
    ∃ userId mode, r.switch? = some (userId, channelId, mode) := by
  obtain ⟨hmethod, userId, huser, ⟨-, push, -, hkey⟩ | ⟨hpath, query, hquery, hkey, -⟩⟩ := h
  · rcases hkey with ⟨hkey, -⟩ | hkey
    · exact absurd hkey.symm (Key.pubkey_ne_mode userId channelId)
    · exact absurd hkey.symm (Key.backup_ne_mode userId channelId)
  · refine ⟨userId, Mode.ofName query.mode, Request.switch?_eq_some_iff.2 ?_⟩
    exact ⟨hmethod, hpath, huser, query, hquery, Key.mode_inj.1 hkey, rfl⟩

namespace Route

theorem path_of_ofPath? {path : String} {route : Route} (h : ofPath? path = some route) :
    path = match route with
      | .health => "/health"
      | .publishKeys => "/api/v1/pubkey/push"
      | .lookUpKeys => "/api/v1/pubkey/get"
      | .channelMode => "/api/v1/channel/encryption_method"
      | .gpgKey => "/api/v1/gpg/get_pub_key" := by
  rw [ofPath?] at h
  split at h
  · cases h; assumption
  split at h
  · cases h; assumption
  split at h
  · cases h; assumption
  split at h
  · cases h; assumption
  split at h
  · cases h; assumption
  · cases h

/-- Keys are published by one method on one route. -/
theorem of_action?_publishKeys {route : Route} {method : String}
    (h : route.action? method = some .publishKeys) : route = .publishKeys ∧ method = "POST" := by
  cases route <;> grind [action?]

/-- A mode is changed by one method on one route. -/
theorem of_action?_changeMode {route : Route} {method : String}
    (h : route.action? method = some .changeMode) : route = .channelMode ∧ method = "POST" := by
  cases route <;> grind [action?]

end Route

namespace Api

variable {reach : Reach}

/-! ## Parts of a request -/

/-- The response to the outcome of an operation. -/
def response {α : Type} (success : α → Response) : Except ServiceError α → Response
  | .ok a => success a
  | .error e => failure e

theorem respondWith_eq {α : Type} (success : α → Response) (op : Operation ServiceError α) :
    respondWith success op = response success <$> op.run := by
  rw [respondWith, ← bind_pure_comp]
  refine congrArg (Bind.bind op.run) (funext fun result => ?_)
  cases result <;> rfl

theorem within_respondWith {α : Type} {success : α → Response} {op : Operation ServiceError α}
    (hop : op.run.Within reach) : (respondWith success op).Within reach := by
  rw [respondWith_eq]
  exact .map hop

theorem within_withBody {α : Type} {r : Request} {diagnose : Json.Diagnosis}
    {read : Json → Option α}
    {handle : α → Program Response}
    (h : ∀ a, r.read? read = some a → (handle a).Within reach) :
    (withBody r diagnose read handle).Within reach := by
  rw [withBody]
  split
  · exact .pure _
  · rename_i hlimit
    cases hbody : (Json.parse? r.body).bind read with
    | none => exact .pure _
    | some a => exact h a (by rw [Request.read?, if_neg hlimit, hbody])

theorem within_withQuery {r : Request} {handle : ChannelQuery → Program Response}
    (h : ∀ query, ChannelQuery.ofQuery r.query = .ok query → (handle query).Within reach) :
    (withQuery r handle).Within reach := by
  rw [withQuery]
  cases hquery : ChannelQuery.ofQuery r.query with
  | ok query => exact h query hquery
  | error name => exact .pure _

/-! ## Requests -/

/-- The program behind a request. -/
def serve (s : Service) (r : Request) : Program Response :=
  match Route.ofPath? r.path with
  | none => return .empty 404
  | some route => finish route r <$> respond s route r

/-- An action does what the request has authority for. -/
theorem within_perform (s : Service) {userId : String} {r : Request} {route : Route}
    {action : Action} (hroute : Route.ofPath? r.path = some route)
    (haction : route.action? r.method = some action)
    (huser : action ≠ .health → r.user? = some userId) :
    (perform s userId r action).Within r.reach := by
  have hpath := Route.path_of_ofPath? hroute
  have hmodes (channelId : String) : r.reach.reads (Key.mode channelId) := Key.openTo_mode channelId
  have hpairs (userId : String) : r.reach.reads (Key.pubkey userId) := Key.openTo_pubkey userId
  cases action with
  | health => exact .pure _
  | publishKeys =>
    obtain ⟨rfl, hmethod⟩ := Route.of_action?_publishKeys haction
    have huser' := huser (by decide)
    have hbackup : r.reach.reads (Key.backup userId) := Key.openTo_backup_iff.2 huser'
    rw [perform]
    refine within_withBody fun push hpush =>
      within_respondWith (s.within_pushKeys ?_ ?_ hbackup ?_)
    · intro hvalid
      exact ⟨hmethod, userId, huser', .inl ⟨hpath, push, hpush, .inl ⟨rfl, hvalid, rfl⟩⟩⟩
    · intro value
      exact ⟨hmethod, userId, huser', .inl ⟨hpath, push, hpush, .inr rfl⟩⟩
    · have hpublish : r.push? = some (userId, push) :=
        Request.push?_eq_some_iff.2 ⟨hmethod, hpath, huser', hpush⟩
      exact .inl ⟨userId, push, hpublish, rfl⟩
  | lookUpKeys =>
    exact within_withBody fun userIds _ =>
      within_respondWith (s.within_keysOf fun userId _ => hpairs userId)
  | showMode =>
    rw [perform]
    exact within_withQuery fun query _ =>
      within_respondWith (s.within_channelMode userId (hmodes query.channelId))
  | changeMode =>
    obtain ⟨rfl, hmethod⟩ := Route.of_action?_changeMode haction
    have huser' := huser (by decide)
    rw [perform]
    refine within_withQuery fun query hquery => within_respondWith
      (s.within_changeMode userId (hmodes query.channelId) ?_ hpairs ?_)
    · exact ⟨hmethod, userId, huser', .inr ⟨hpath, query, hquery, rfl, rfl⟩⟩
    · have hswitch : r.switch? = some (userId, query.channelId, Mode.ofName query.mode) :=
        Request.switch?_eq_some_iff.2 ⟨hmethod, hpath, huser', query, hquery, rfl, rfl⟩
      exact .inr ⟨userId, query.channelId, Mode.ofName query.mode, hswitch, rfl⟩
  | gpgKey => exact within_respondWith (s.within_gpgKeyOf userId)

/-- The user of a request on a route that is not public. -/
theorem user?_of_route {route : Route} {r : Request} {userId : String} {action : Action}
    (h : (if route.isPublic then some "" else r.user?) = some userId)
    (haction : route.action? r.method = some action) (hne : action ≠ .health) :
    r.user? = some userId := by
  cases route with
  | health =>
    rw [Route.action?] at haction
    split at haction
    · exact absurd (Option.some.inj haction).symm hne
    · cases haction
  | _ => exact h

/-- A response to `POST` on a route that allows it is left as it is. -/
theorem finish_of_post {route : Route} {r : Request} (hmethod : r.method = "POST")
    (haction : (route.action? r.method).isSome) : finish route r = id := by
  funext response
  obtain ⟨action, haction⟩ := Option.isSome_iff_exists.1 haction
  rw [finish, haction, hmethod]
  rfl

/-- A request is answered by an operation, and its response is left as it is. -/
structure Answers {α : Type} (s : Service) (r : Request) (route : Route) (success : α → Response)
    (op : Operation ServiceError α) : Prop where
  ofPath : Route.ofPath? r.path = some route
  respond : Api.respond s route r = respondWith success op
  finish : Http.finish route r = id

/-- The program behind a request that is answered by an operation. -/
theorem Answers.serve {α : Type} {s : Service} {r : Request} {route : Route}
    {success : α → Response} {op : Operation ServiceError α}
    (h : Answers s r route success op) : serve s r = response success <$> op.run := by
  rw [Api.serve, h.ofPath]
  dsimp only
  rw [h.respond, respondWith_eq, h.finish, id_map]

/-- A request that publishes a key pair is answered by that push. -/
theorem answers_of_push (s : Service) {r : Request} {userId : String} {push : KeyPush}
    (h : r.push? = some (userId, push)) :
    Answers s r .publishKeys (fun _ => .empty 200) (s.pushKeys userId push) := by
  obtain ⟨hmethod, hpath, huser, hread⟩ := Request.push?_eq_some_iff.1 h
  have haction : Route.publishKeys.action? r.method = some .publishKeys := by rw [hmethod]; rfl
  obtain ⟨hlimit, hbody⟩ := Request.of_read? hread
  refine ⟨by rw [hpath]; rfl, ?_, finish_of_post hmethod (by rw [haction]; rfl)⟩
  simp only [respond, Route.isPublic, huser, respondOn, haction, perform, withBody, if_neg hlimit,
    hbody]
  rfl

/-- A request that asks for a change of a mode is answered by that change. -/
theorem answers_of_switch (s : Service) {r : Request} {userId channelId : String} {mode : Mode}
    (h : r.switch? = some (userId, channelId, mode)) :
    Answers s r .channelMode (fun _ => .empty 200) (s.changeMode userId channelId mode) := by
  obtain ⟨hmethod, hpath, huser, query, hquery, rfl, rfl⟩ := Request.switch?_eq_some_iff.1 h
  have haction : Route.channelMode.action? r.method = some .changeMode := by
    rw [hmethod]
    rfl
  refine ⟨by rw [hpath]; rfl, ?_, finish_of_post hmethod (by rw [haction]; rfl)⟩
  simp only [respond, Route.isPublic, huser, respondOn, haction, perform, withQuery, hquery]
  rfl

/-- **Requests and their reach.**  A request on a route does what it has authority for. -/
theorem within_respond (s : Service) {r : Request} {route : Route}
    (hroute : Route.ofPath? r.path = some route) : (respond s route r).Within r.reach := by
  rw [respond]
  cases huser : if route.isPublic then some "" else r.user? with
  | none => exact .pure _
  | some userId =>
    dsimp only
    rw [respondOn]
    cases haction : route.action? r.method with
    | none => exact .pure _
    | some action =>
      exact within_perform s hroute haction fun hne => user?_of_route huser haction hne

/-- So does a request on any path. -/
theorem within_serve (s : Service) (r : Request) : (serve s r).Within r.reach := by
  rw [serve]
  cases hroute : Route.ofPath? r.path with
  | none => exact .pure _
  | some route => exact .map (within_respond s hroute)

/-- A request on a route writes what it has authority for. -/
theorem writes_respond (s : Service) {r : Request} {route : Route}
    (hroute : Route.ofPath? r.path = some route) : (respond s route r).Writes r.mayWrite :=
  (within_respond s hroute).writes

/-- So does a request on any path. -/
theorem writes_serve (s : Service) (r : Request) : (serve s r).Writes r.mayWrite :=
  (within_serve s r).writes

end Api

/-! ## Answered requests -/

/-- The calls behind a request. -/
def exchanges (s : Service) (r : Request) (w : World) : List Exchange :=
  match Route.ofPath? r.path with
  | none => []
  | some route => (Api.respond s route r).transcript (some deadline) w

/-- The response to a request in changing weather, and the world after it. -/
def answerAmid (weather : Weather) (s : Service) (r : Request) (w : World) : Response × World :=
  match Route.ofPath? r.path with
  | none => (.empty 404, w)
  | some route =>
    let (outcome, w) := (Api.respond s route r).runAmid weather (some deadline) w
    (finish route r (responseTo outcome), w)

/-- The calls behind a request in changing weather. -/
def exchangesAmid (weather : Weather) (s : Service) (r : Request) (w : World) : List Exchange :=
  match Route.ofPath? r.path with
  | none => []
  | some route => (Api.respond s route r).transcriptAmid weather (some deadline) w

/-- Without any weather, a request is answered as usual. -/
@[simp]
theorem answerAmid_nil (s : Service) (r : Request) (w : World) :
    answerAmid [] s r w = answer s r w := by
  unfold answerAmid answer
  cases Route.ofPath? r.path with
  | none => rfl
  | some route =>
    dsimp only
    rw [runAmid_nil]

@[simp]
theorem exchangesAmid_nil (s : Service) (r : Request) (w : World) :
    exchangesAmid [] s r w = exchanges s r w := by
  simp only [exchangesAmid, exchanges, transcriptAmid_nil]

variable {s : Service} {r : Request} {w : World}

/-- The world after a request is the one after its run. -/
theorem answer_of_route {route : Route} (hroute : Route.ofPath? r.path = some route) :
    (answer s r w).2 = ((Api.respond s route r).run (some deadline) w).2 := by
  rw [answer, hroute]

/-- A value that a request changes is one that it may write. -/
theorem mayWrite_of_answer_ne {key : String} (hw : w.store.Spares key)
    (hne : (answer s r w).2.store.get? key ≠ w.store.get? key) :
    r.mayWrite key ((answer s r w).2.store.get? key) := by
  cases hroute : Route.ofPath? r.path with
  | none =>
    rw [answer, hroute] at hne
    exact absurd rfl hne
  | some route =>
    rw [answer_of_route hroute] at hne ⊢
    exact (Api.writes_respond s hroute).of_get?_run_ne hw hne

end Http

end SealedChannel
