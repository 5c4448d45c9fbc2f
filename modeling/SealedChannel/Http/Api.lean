import SealedChannel.Http.Message
import SealedChannel.Http.Route
import SealedChannel.Service.ChannelMode
import SealedChannel.Service.Keys

/-!
# The API of the service

A request is answered by a program that makes the calls behind it.  The user is known from a header
that the platform sets; nothing else is looked at before that header.

## What is here

* `Request.user?` — the user of a request.
* `ChannelQuery` — the channel and the mode that a request names.
* `Api.failure` — the response to an error, whose status tells whose fault it is.
* `Api.respond` — the response to a request on a route.
-/

set_option autoImplicit false
namespace SealedChannel
namespace Http

/-! ## What a request holds -/

/-- Whether a byte of a header is text. -/
def isHeaderText (b : UInt8) : Bool :=
  (0x20 ≤ b.toNat && b.toNat < 0x7F) || b == 0x09

/-- The user of a request: the header must hold text and not be empty. -/
def Request.user? (r : Request) : Option String :=
  match r.userHeader with
  | none => none
  | some value =>
    if !value.isEmpty && value.all isHeaderText then
      some (String.ofList (value.map fun b => Char.ofNat b.toNat))
    else none

/-- The channel and the mode that a request names. -/
structure ChannelQuery where
  channelId : String
  mode : String
  deriving DecidableEq, Repr

namespace ChannelQuery

/-- The members of a query by name; a pair with another name is passed over.  `seen` holds the
pairs with known names so far. -/
def fromPairs (seen : List (String × String)) :
    List (String × String) → Except String ChannelQuery
  | [] => .ok ⟨(seen.lookup "chanID").getD "", (seen.lookup "method").getD ""⟩
  | (name, value) :: rest =>
    if name = "chanID" ∨ name = "method" then
      if (seen.lookup name).isSome then .error name
      else fromPairs ((name, value) :: seen) rest
    else fromPairs seen rest

/-- The channel and the mode of a query; a name may not be repeated. -/
def ofQuery (query : String) : Except String ChannelQuery :=
  fromPairs [] (Form.parse (Bytes.ofText query))

end ChannelQuery

/-- The users that a look-up names; none if the member is left out. -/
def userIdsOfJson? (value : Json) : Option (List String) := do
  let r ← Json.Record.ofJson? ["userIds"] value
  r.defaulted "userIds" [] (Json.list? Json.text?)

namespace Api

/-! ## Responses -/

/-- The status of an error. -/
def statusOf : ServiceError → Nat
  | .unauthorized => 401
  | .notChannelMember _ _ _ => 401
  | .badRequest _ => 400
  | .invalidKey _ => 400
  | .unknownCommand _ => 400
  | .noBackup => 404
  | .keyServer _ (.status code) => if 100 ≤ code ∧ code < 1000 then code else 502
  | _ => 500

/-- The response to an error: its status and its text. -/
def failure (e : ServiceError) : Response :=
  .text (statusOf e) e.message

/-- The response to the outcome of an operation. -/
def respondWith {α : Type} (success : α → Response) (op : Operation ServiceError α) :
    Program Response := do
  match ← op.run with
  | .ok a => return success a
  | .error e => return failure e

/-- The largest number of bytes of a body. -/
def bodyLimit : Nat := 2097152

/-- Reads the body of a request, which may not be too large. -/
def withBody {α : Type} (r : Request) (diagnose : Json.Diagnosis) (read : Json → Option α)
    (handle : α → Program Response) : Program Response :=
  if bodyLimit < r.body.length then
    return .text 413 "Failed to buffer the request body: length limit exceeded"
  else
    match (Json.parse? r.body).bind read with
    | some a => handle a
    | none => return failure (.badRequest (diagnose r.body))

/-- Reads the query of a request. -/
def withQuery (r : Request) (handle : ChannelQuery → Program Response) : Program Response :=
  match ChannelQuery.ofQuery r.query with
  | .ok query => handle query
  | .error name =>
    return .text 400 ("Failed to deserialize query string: duplicate field `" ++ name ++ "`")

/-- The key pairs of several users as a JSON value. -/
def keysToJson (keys : Table (Option KeyPair)) : Json :=
  .record [("pubKeys",
    .record (keys.entries.map fun (userId, pair) => (userId, .ofOption KeyPair.toJson pair)))]

/-- The response to an action that a user asks for. -/
def perform (s : Service) (userId : String) (r : Request) : Action → Program Response
  | .health => return .text 200 "OK"
  | .publishKeys =>
    withBody r s.diagnostics.push KeyPush.ofJson? fun push =>
      respondWith (fun _ => .empty 200) (s.pushKeys userId push)
  | .lookUpKeys =>
    withBody r s.diagnostics.userIds userIdsOfJson? fun userIds =>
      respondWith (fun keys => .json (keysToJson keys)) (s.keysOf userIds)
  | .showMode =>
    withQuery r fun query =>
      respondWith (fun mode => .json (.record [("method", .ofText mode.name)]))
        (s.channelMode userId query.channelId)
  | .changeMode =>
    withQuery r fun query =>
      respondWith (fun _ => .empty 200)
        (s.changeMode userId query.channelId (Mode.ofName query.mode))
  | .gpgKey =>
    respondWith (fun key => .json (.record [("key", .ofText key)])) (s.gpgKeyOf userId)

/-! ## Requests -/

/-- The response on a route, for a user: a method that the route does not allow is refused. -/
def respondOn (s : Service) (route : Route) (userId : String) (r : Request) : Program Response :=
  match route.action? r.method with
  | some action => perform s userId r action
  | none => return .empty 405

/-- The response to a request on a route.  Where users are asked for, one who is not named is
refused before anything else is looked at. -/
def respond (s : Service) (route : Route) (r : Request) : Program Response :=
  match if route.isPublic then some "" else r.user? with
  | some userId => respondOn s route userId r
  | none => return failure .unauthorized

end Api

end Http

end SealedChannel
