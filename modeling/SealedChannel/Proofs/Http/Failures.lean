import SealedChannel.Proofs.Http.Deadline
import SealedChannel.Proofs.Http.Push
import SealedChannel.Proofs.KeyServer.Client
import SealedChannel.Proofs.Service.FailedChange

/-!
# Failures that clients see

A client knows of the end of an operation what the response tells.  If the operation behind a request
fails, the response holds the text of the error, unless it loses its body like every response to
`HEAD`, and its status is one of an error; a status that a key server gave with its refusal is passed
on, and is one of an error if the key server's was.  A status of 200 tells of success.

## What is here

* `KeyServer.Client.throws_fetch` — no error of a key server has the status of a success.
* `Http.Api.Behind` — the operation behind a request.
* `Http.Api.respond_of_behind`, `Http.Api.respond_of_not_behind` — the response to a request is told
  by the end of that operation, and a request without one is turned away.
* `Http.visible_failures` — what a client sees of a failure.
-/

set_option autoImplicit false
namespace SealedChannel

open Program Operation

/-! ## Errors of a key server -/

namespace KeyServer

/-- An error does not have the status of a success. -/
def Error.IsFailure (e : Error) : Prop :=
  ∀ code, e = .status code → ¬ (200 ≤ code ∧ code < 300)

namespace Client

theorem throws_lookup (address : String) (pairs : List (String × String)) :
    (lookup address pairs).Throws Error.IsFailure := by
  rw [Operation.Throws, run_lookup]
  refine keeps_map.2 (keeps_lax (fun answer e he => ?_) _)
  rintro code rfl
  obtain ⟨reply, -, rfl, hfailed, -⟩ := refused_status_iff.1 (told_eq_error_iff.1 he)
  exact hfailed

theorem throws_firstUsableKeyId (address email : String) :
    (firstUsableKeyId address email).Throws Error.IsFailure := by
  have hindex : (index address email).Throws Error.IsFailure := by
    refine .bind (throws_lookup _ _) fun body => ?_
    cases body <;> rintro e ⟨⟩
  refine hindex.bind fun listings e he => ?_
  obtain ⟨rfl, -⟩ := firstUsable_eq_error_iff.1 he
  rintro code ⟨⟩

theorem throws_key (address keyId : String) : (key address keyId).Throws Error.IsFailure := by
  refine .bind (throws_lookup _ _) fun body => ?_
  cases body with
  | none =>
    refine throws_throw ?_
    rintro code ⟨⟩
  | some body =>
    intro e he
    obtain ⟨rfl, -⟩ := Armor.extract_eq_error_iff.1 he
    rintro code ⟨⟩

/-- Whatever a key server answers, no error comes of a reply of success. -/
theorem throws_fetch (address email : String) : (fetch address email).Throws Error.IsFailure :=
  (throws_firstUsableKeyId address email).bind fun keyId => throws_key address keyId

end Client

end KeyServer

/-- A key server refused with a status that is not one of an error. -/
def ServiceError.isOddRefusal : ServiceError → Bool
  | .keyServer _ (.status code) => (100 ≤ code && code < 400) || (600 ≤ code && code < 1000)
  | _ => false

namespace Http

/-- The route on which an action is asked for. -/
def Action.route : Action → Route
  | .health => .health
  | .publishKeys => .publishKeys
  | .lookUpKeys => .lookUpKeys
  | .showMode => .channelMode
  | .changeMode => .channelMode
  | .gpgKey => .gpgKey

theorem Route.eq_of_action? {route : Route} {method : String} {action : Action}
    (h : route.action? method = some action) : route = action.route := by
  cases route <;> grind [Route.action?, Action.route]

namespace Api

variable {α β : Type} {s : Service} {r : Request} {route : Route}
  {op : Operation ServiceError Response}

/-! ## Statuses -/

/-- But for odd refusals, the status of an error is one of an error. -/
theorem statusOf_bounds {e : ServiceError} (h : e.isOddRefusal = false) :
    400 ≤ statusOf e ∧ statusOf e < 600 := by
  cases e with
  | keyServer email cause =>
    cases cause with
    | status code =>
      simp only [ServiceError.isOddRefusal, Bool.or_eq_false_iff, Bool.and_eq_false_iff,
        decide_eq_false_iff_not] at h
      rw [statusOf]
      split <;> omega
    | _ => simp [statusOf]
  | _ => simp [statusOf]

theorem statusOf_keyServer_ne_200 {email : String} {cause : KeyServer.Error}
    (h : cause.IsFailure) : statusOf (.keyServer email cause) ≠ 200 := by
  cases cause with
  | status code =>
    have hcode := h code rfl
    rw [statusOf]
    split <;> omega
  | _ => simp [statusOf]

/-! ## The operation behind a request -/

/-- What is read in the body of a request that is not too large. -/
def readBody (r : Request) (diagnose : Json.Diagnosis) (read : Json → Option α) :
    Operation ServiceError α :=
  match r.read? read with
  | some a => pure a
  | none => throw (.badRequest (diagnose r.body))

/-- The operation behind a request on a route where users are asked for, with the response to its
success.  There is none behind a request whose method is not allowed, whose body is too large, or
whose query cannot be read. -/
inductive Behind (s : Service) (r : Request) : Route → Operation ServiceError Response → Prop
  | unnamed {route : Route} (hpublic : route.isPublic = false) (huser : r.user? = none) :
    Behind s r route (throw .unauthorized)
  | publishKeys {userId : String} (huser : r.user? = some userId)
      (haction : Route.publishKeys.action? r.method = some .publishKeys)
      (hlimit : ¬ bodyLimit < r.body.length) :
    Behind s r .publishKeys (readBody r s.diagnostics.push KeyPush.ofJson? >>= fun push =>
      (fun _ => .empty 200) <$> s.pushKeys userId push)
  | lookUpKeys {userId : String} (huser : r.user? = some userId)
      (haction : Route.lookUpKeys.action? r.method = some .lookUpKeys)
      (hlimit : ¬ bodyLimit < r.body.length) :
    Behind s r .lookUpKeys (readBody r s.diagnostics.userIds userIdsOfJson? >>= fun userIds =>
      (fun keys => .json (keysToJson keys)) <$> s.keysOf userIds)
  | showMode {userId : String} {query : ChannelQuery} (huser : r.user? = some userId)
      (haction : Route.channelMode.action? r.method = some .showMode)
      (hquery : ChannelQuery.ofQuery r.query = .ok query) :
    Behind s r .channelMode ((fun mode => .json (.record [("method", .ofText mode.name)])) <$>
      s.channelMode userId query.channelId)
  | changeMode {userId : String} {query : ChannelQuery} (huser : r.user? = some userId)
      (haction : Route.channelMode.action? r.method = some .changeMode)
      (hquery : ChannelQuery.ofQuery r.query = .ok query) :
    Behind s r .channelMode ((fun _ => .empty 200) <$>
      s.changeMode userId query.channelId (Mode.ofName query.mode))
  | gpgKey {userId : String} (huser : r.user? = some userId)
      (haction : Route.gpgKey.action? r.method = some .gpgKey) :
    Behind s r .gpgKey ((fun key => .json (.record [("key", .ofText key)])) <$> s.gpgKeyOf userId)

/-- The response to success may be made within the operation. -/
theorem respondWith_eq_map (success : α → Response) (op : Operation ServiceError α) :
    respondWith success op = response id <$> (success <$> op).run := by
  rw [respondWith_eq, ExceptT.run_map, Functor.map_map]
  refine congrArg (· <$> op.run) (funext fun result => ?_)
  cases result <;> rfl

theorem withBody_eq {diagnose : Json.Diagnosis} {read : Json → Option α}
    (success : β → Response) (op : α → Operation ServiceError β)
    (hlimit : ¬ bodyLimit < r.body.length) :
    withBody r diagnose read (fun a => respondWith success (op a)) =
      response id <$> (readBody r diagnose read >>= fun a => success <$> op a).run := by
  rw [withBody, if_neg hlimit, readBody, Request.read?, if_neg hlimit]
  cases (Json.parse? r.body).bind read with
  | none => rfl
  | some a => exact respondWith_eq_map success (op a)

theorem respond_of_user {userId : String} {action : Action} (hpublic : route.isPublic = false)
    (huser : r.user? = some userId) (haction : route.action? r.method = some action) :
    respond s route r = perform s userId r action := by
  rw [respond, hpublic, if_neg Bool.false_ne_true, huser]
  dsimp only
  rw [respondOn, haction]

/-- The response to a request is told by the end of the operation behind it. -/
theorem respond_of_behind (h : Behind s r route op) :
    respond s route r = response id <$> op.run := by
  cases h with
  | unnamed hpublic huser =>
    rw [respond, hpublic, if_neg Bool.false_ne_true, huser]
    rfl
  | publishKeys huser haction hlimit =>
    rw [respond_of_user rfl huser haction, perform, withBody_eq _ _ hlimit]
  | lookUpKeys huser haction hlimit =>
    rw [respond_of_user rfl huser haction, perform, withBody_eq _ _ hlimit]
  | showMode huser haction hquery =>
    rw [respond_of_user rfl huser haction, perform, withQuery, hquery, ← respondWith_eq_map]
  | changeMode huser haction hquery =>
    rw [respond_of_user rfl huser haction, perform, withQuery, hquery, ← respondWith_eq_map]
  | gpgKey huser haction =>
    rw [respond_of_user rfl huser haction, perform, ← respondWith_eq_map]

/-- A request without an operation behind it is turned away. -/
theorem respond_of_not_behind (hpublic : route.isPublic = false)
    (hnone : ∀ op, ¬ Behind s r route op) :
    ∃ response, respond s route r = pure response ∧ response.status ∈ [400, 405, 413] := by
  cases huser : r.user? with
  | none => exact absurd (.unnamed hpublic huser) (hnone _)
  | some userId =>
    cases haction : route.action? r.method with
    | none =>
      refine ⟨.empty 405, ?_, by simp [Response.empty]⟩
      rw [respond, hpublic, if_neg Bool.false_ne_true, huser]
      dsimp only
      rw [respondOn, haction]
    | some action =>
      rw [respond_of_user hpublic huser haction]
      obtain rfl := Route.eq_of_action? haction
      cases action with
      | health => cases hpublic
      | publishKeys =>
        by_cases hlimit : bodyLimit < r.body.length
        · exact ⟨_, if_pos hlimit, by simp [Response.text]⟩
        · exact absurd (.publishKeys huser haction hlimit) (hnone _)
      | lookUpKeys =>
        by_cases hlimit : bodyLimit < r.body.length
        · exact ⟨_, if_pos hlimit, by simp [Response.text]⟩
        · exact absurd (.lookUpKeys huser haction hlimit) (hnone _)
      | showMode =>
        cases hquery : ChannelQuery.ofQuery r.query with
        | ok query => exact absurd (.showMode huser haction hquery) (hnone _)
        | error name =>
          rw [perform, withQuery, hquery]
          exact ⟨_, rfl, by simp [Response.text]⟩
      | changeMode =>
        cases hquery : ChannelQuery.ofQuery r.query with
        | ok query => exact absurd (.changeMode huser haction hquery) (hnone _)
        | error name =>
          rw [perform, withQuery, hquery]
          exact ⟨_, rfl, by simp [Response.text]⟩
      | gpgKey => exact absurd (.gpgKey huser haction) (hnone _)

/-! ## How the operation may end -/

/-- No error of the operation behind a request has the status of its success. -/
theorem throws_of_behind (h : Behind s r route op) : op.Throws fun e => statusOf e ≠ 200 := by
  have hbody {α : Type} (diagnose : Json.Diagnosis) (read : Json → Option α) :
      (readBody r diagnose read).Throws fun e => statusOf e ≠ 200 := by
    rw [readBody]
    split
    · rintro e ⟨⟩
    · exact throws_throw (by simp [statusOf])
  cases h with
  | unnamed hpublic huser => exact throws_throw (by simp [statusOf])
  | publishKeys huser haction hlimit =>
    refine (hbody _ _).bind fun push => .map ?_ _
    exact (s.throws_pushKeys _ push).imp fun e => statusOf_ne_200
  | lookUpKeys huser haction hlimit =>
    refine (hbody _ _).bind fun userIds => .map ?_ _
    exact throws_wrap (fun _ => by simp [statusOf]) _
  | showMode huser haction hquery =>
    refine .map (.bind (.bind (throws_wrap (fun _ => by simp [statusOf]) _) fun _ => ?_) fun _ => ?_) _
    · rintro e ⟨⟩
    · exact throws_lift _
  | changeMode huser haction hquery =>
    refine .map (Service.throws_changeMode ?_ ?_ s _ ?_ ?_) _
    all_goals simp [statusOf]
  | gpgKey huser haction =>
    refine .map (.bind (throws_wrap (fun _ => by simp [statusOf]) _) fun user => ?_) _
    exact (KeyServer.Client.throws_fetch _ _).wrap _ fun cause => statusOf_keyServer_ne_200

theorem keeps_map_status {success : α → Response} (hsuccess : ∀ a, (success a).status = 200)
    (op : Operation ServiceError α) : Program.Keeps .lax (success <$> op).run fun result =>
      ∀ response, result = .ok response → response.status = 200 := by
  rw [ExceptT.run_map]
  refine keeps_map.2 (keeps_lax (fun result => ?_) _)
  cases result with
  | ok a => rintro response ⟨⟩; exact hsuccess a
  | error e => rintro response ⟨⟩

/-- The response to success has the status 200. -/
theorem keeps_status_of_behind (h : Behind s r route op) : op.run.Keeps .lax fun result =>
    ∀ response, result = .ok response → response.status = 200 := by
  cases h with
  | unnamed hpublic huser => rintro response ⟨⟩
  | publishKeys huser haction hlimit =>
    refine keeps_run_bind.2 (keeps_lax (fun result => ?_) _)
    cases result with
    | ok push => exact keeps_map_status (fun _ => rfl) _
    | error e => rintro response ⟨⟩
  | lookUpKeys huser haction hlimit =>
    refine keeps_run_bind.2 (keeps_lax (fun result => ?_) _)
    cases result with
    | ok userIds => exact keeps_map_status (fun _ => rfl) _
    | error e => rintro response ⟨⟩
  | showMode huser haction hquery => exact keeps_map_status (fun _ => rfl) _
  | changeMode huser haction hquery => exact keeps_map_status (fun _ => rfl) _
  | gpgKey huser haction => exact keeps_map_status (fun _ => rfl) _

end Api

variable {s : Service} {r : Request} {route : Route} {w : World}
  {op : Operation ServiceError Response}

/-! ## Responses -/

/-- What a route does to a response leaves the status. -/
theorem status_finish (route : Route) (r : Request) (response : Response) :
    (finish route r response).status = response.status := by
  rw [finish]
  split
  · rfl
  · split <;> rfl

/-- Only `HEAD` takes the body from a response, on a route that can be read. -/
theorem body_finish (route : Route) (r : Request) (response : Response) :
    (finish route r response).body =
      if r.method = "HEAD" ∧ (route.action? r.method).isSome then [] else response.body := by
  rw [finish]
  cases route.action? r.method with
  | none => simp
  | some action => by_cases hhead : r.method = "HEAD" <;> simp [hhead, Response.withoutBody]

/-- The answer to a request is told by the end of the operation behind it. -/
theorem answer_of_behind (hroute : Route.ofPath? r.path = some route)
    (h : Api.Behind s r route op) (w : World) : (answer s r w).1 =
      finish route r (responseTo ((op.run.run (some deadline) w).1.map (Api.response id))) := by
  rw [answer, hroute]
  dsimp only
  rw [Api.respond_of_behind h, run_map]

/-- The status is 200 if and only if the operation behind a request succeeds. -/
theorem status_answer_of_behind (hroute : Route.ofPath? r.path = some route)
    (h : Api.Behind s r route op) (w : World) : (answer s r w).1.status = 200 ↔
      ∃ response, (op.run.run (some deadline) w).1 = .finished (.ok response) := by
  have herrors : ∀ result, (op.run.run (some deadline) w).1 = .finished result →
      ∀ e, result = .error e → Api.statusOf e ≠ 200 :=
    (Keeps.run (Api.throws_of_behind h) fun _ _ _ _ => trivial).2
  have hsuccess : ∀ result, (op.run.run (some deadline) w).1 = .finished result →
      ∀ response, result = .ok response → response.status = 200 :=
    (Keeps.run (Api.keeps_status_of_behind h) fun _ _ _ _ => trivial).2
  rw [answer_of_behind hroute h, status_finish]
  cases houtcome : (op.run.run (some deadline) w).1 with
  | finished result =>
    cases result with
    | ok response => exact iff_of_true (hsuccess _ houtcome response rfl) ⟨response, rfl⟩
    | error e => exact iff_of_false (herrors _ houtcome e rfl) (by rintro ⟨response, ⟨⟩⟩)
  -- a request that is cut off is answered all the same, but not with 200
  | _ => exact iff_of_false (by rintro ⟨⟩) (by rintro ⟨response, ⟨⟩⟩)

/-- **Failures are seen.**  On a route where users are asked for, if the operation behind a request
fails then the response holds the text of the error, unless `HEAD` takes it, and its status is one of
an error, unless a key server refused with one that is not.  The status is 200 if and only if the
operation succeeds; a request that is turned away without one has another status. -/
theorem visible_failures (s : Service) {r : Request} {route : Route}
    (hroute : Route.ofPath? r.path = some route) (hpublic : route.isPublic = false) (w : World) :
    (∀ op, Api.Behind s r route op →
      (∀ e, (op.run.run (some deadline) w).1 = .finished (.error e) →
        (answer s r w).1.body = (if r.method = "HEAD" ∧ (route.action? r.method).isSome then []
          else Bytes.ofText e.message) ∧
        (e.isOddRefusal = false →
          400 ≤ (answer s r w).1.status ∧ (answer s r w).1.status < 600)) ∧
      ((answer s r w).1.status = 200 ↔
        ∃ response, (op.run.run (some deadline) w).1 = .finished (.ok response))) ∧
    ((∀ op, ¬ Api.Behind s r route op) → (answer s r w).1.status ∈ [400, 405, 413]) := by
  refine ⟨fun op h => ⟨fun e he => ?_, status_answer_of_behind hroute h w⟩, fun hnone => ?_⟩
  · rw [answer_of_behind hroute h, status_finish, body_finish, he]
    exact ⟨rfl, Api.statusOf_bounds⟩
  · obtain ⟨response, hresponse, hstatus⟩ := Api.respond_of_not_behind (s := s) hpublic hnone
    rw [answer, hroute]
    dsimp only
    rw [hresponse, status_finish]
    exact hstatus

/-- The operation behind the request for the mode of a channel. -/
def modeOperation (userId channelId : String) : Operation ServiceError Response :=
  (fun mode => .json (.record [("method", .ofText mode.name)])) <$>
    (Service.new .default true).channelMode userId channelId

theorem behind_modeRequest {method : String} (h : Route.isRead method = true) :
    Api.Behind (.new .default true) (modeRequest method) .channelMode (modeOperation "u" "c") := by
  have haction : Route.channelMode.action? method = some .showMode := if_pos h
  have hquery : ChannelQuery.ofQuery (modeRequest "GET").query = .ok ⟨"c", "p2p"⟩ := by
    decide +kernel
  have hbehind := Api.Behind.showMode (s := .new .default true) (r := modeRequest method) rfl haction
    hquery
  exact hbehind

/-- Nobody is a member of the channel. -/
theorem run_modeOperation : ((modeOperation "u" "c").run.run (some deadline) (.new .memory)).1 =
    .finished (.error (.notChannelMember "u" "c" (.notFound "member u of channel c"))) := by
  decide +kernel

/-- Somebody who is no member of a channel is told so. -/
theorem visible_failures_of_stranger :
    (answer (.new .default true) (modeRequest "GET") (.new .memory)).1.body =
        Bytes.ofText "user u is not a member of channel c" ∧
      400 ≤ (answer (.new .default true) (modeRequest "GET") (.new .memory)).1.status ∧
      (answer (.new .default true) (modeRequest "GET") (.new .memory)).1.status < 600 := by
  have hroute : Route.ofPath? (modeRequest "GET").path = some .channelMode := by decide +kernel
  obtain ⟨hfailure, -⟩ := (visible_failures (.new .default true) hroute rfl (.new .memory)).1 _
    (behind_modeRequest rfl)
  obtain ⟨hbody, hstatus⟩ := hfailure _ run_modeOperation
  exact ⟨hbody, hstatus rfl⟩

/-- A user asks for a key. -/
def keyRequest : Request :=
  ⟨"GET", "/api/v1/gpg/get_pub_key", some [0x75], []⟩

/-- The key server refuses, with a status that is not one of an error. -/
def refusingWorld : World :=
  { World.new .memory with
    host := (Host.new.addUser "u" "ann").2
    keyServer := ⟨none, [⟨304, []⟩], []⟩ }

/-- The text of an error is lost where the method is `HEAD`, and an odd refusal by a key server gives
the response a status that is not one of an error. -/
theorem failures_seen_otherwise :
    (∃ op e, Api.Behind (.new .default true) (modeRequest "HEAD") .channelMode op ∧
      (op.run.run (some deadline) (.new .memory)).1 = .finished (.error e) ∧
      (answer (.new .default true) (modeRequest "HEAD") (.new .memory)).1.body ≠
        Bytes.ofText e.message) ∧
    ∃ op e, Api.Behind (.new .default true) keyRequest .gpgKey op ∧
      (op.run.run (some deadline) refusingWorld).1 = .finished (.error e) ∧
      (answer (.new .default true) keyRequest refusingWorld).1.status < 400 := by
  have hrefused : (((fun key => Response.json (.record [("key", .ofText key)])) <$>
      (Service.new .default true).gpgKeyOf "u" : Operation ServiceError Response).run.run
        (some deadline) refusingWorld).1 =
      .finished (.error (.keyServer "ann@example.com" (.status 304))) := by
    decide +kernel
  exact ⟨⟨_, _, behind_modeRequest rfl, run_modeOperation, by decide +kernel⟩,
    _, _, .gpgKey rfl rfl, hrefused, by decide +kernel⟩

end Http
end SealedChannel
