import SealedChannel.Http.Target

/-!
# The key server at the other end

## What is here

* `Reply` — what a server sends back.
* `Server` — why no request reaches the server, if none does, the replies it has ready, and the
  requests that reached it so far.
* `Server.answer` — the outcome of one request.
* `baseUrl` — the address of a key server without slashes at its end.
* `lookupTarget` — where a key server answers look-ups.
-/

set_option autoImplicit false
namespace SealedChannel
namespace KeyServer

/-- What a server sends back. -/
structure Reply where
  status : Nat
  body : Bytes
  deriving DecidableEq, Repr

/-- The reply of a server that has none ready. -/
def Reply.exhausted : Reply :=
  ⟨500, []⟩

/-- A key server. -/
structure Server where
  /-- Why no request reaches the server, if none does; the reason is that of the transport. -/
  outage : Option String
  /-- The replies that are ready, first to last. -/
  replies : List Reply
  /-- Path and query of the requests that reached the server, first to last. -/
  requests : List String
  deriving DecidableEq, Repr

namespace Server

/-- A server that cannot be reached, for a reason that may be given. -/
def unreachable (reason : String := "") : Server :=
  ⟨some reason, [], []⟩

instance : Inhabited Server :=
  ⟨unreachable⟩

/-- Makes one more reply ready. -/
def prepare (s : Server) (reply : Reply) : Server :=
  { s with replies := s.replies ++ [reply] }

/-- The outcome of a request: a reply, or the reason why there is none. -/
def answer (s : Server) (target : Http.Target) : Except String Reply × Server :=
  match s.outage with
  | some reason => (.error reason, s)
  | none =>
    let s := { s with requests := s.requests ++ [target.resource] }
    match s.replies with
    | [] => (.ok .exhausted, s)
    | reply :: rest => (.ok reply, { s with replies := rest })

end Server

/-! ## Where to ask -/

/-- The address of a key server without slashes at its end. -/
def baseUrl (address : String) : String :=
  String.ofList (address.toList.reverse.dropWhile (· = '/')).reverse

/-- Where the key server at an address answers a look-up. -/
def lookupTarget (address : String) (pairs : List (String × String)) : Http.Target :=
  (Http.Target.ofUrl (baseUrl address ++ "/pks/lookup")).withPairs pairs

end KeyServer

end SealedChannel
