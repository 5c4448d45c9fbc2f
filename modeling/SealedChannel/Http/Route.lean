import SealedChannel.Bytes

/-!
# Routes

## What is here

* `Route` — the paths that the service answers.
* `Action` — what a request may ask for.
* `Route.action?` — the action of a method on a path; a path that can be read answers `HEAD` like
  `GET`.
* `Route.allowed` — the methods that a path allows.
-/

set_option autoImplicit false
namespace SealedChannel
namespace Http

/-- A path that the service answers. -/
inductive Route where
  | health
  | publishKeys
  | lookUpKeys
  | channelMode
  | gpgKey
  deriving DecidableEq, Repr

/-- What a request may ask for. -/
inductive Action where
  /-- Whether the service is up. -/
  | health
  /-- Publishes the key pair of the user. -/
  | publishKeys
  /-- The key pairs of several users. -/
  | lookUpKeys
  /-- The mode of a channel. -/
  | showMode
  /-- Changes the mode of a channel. -/
  | changeMode
  /-- The user's key block from the key server. -/
  | gpgKey
  deriving DecidableEq, Repr

namespace Route

/-- The route of a path, which must be exact. -/
def ofPath? (path : String) : Option Route :=
  if path = "/health" then some .health
  else if path = "/api/v1/pubkey/push" then some .publishKeys
  else if path = "/api/v1/pubkey/get" then some .lookUpKeys
  else if path = "/api/v1/channel/encryption_method" then some .channelMode
  else if path = "/api/v1/gpg/get_pub_key" then some .gpgKey
  else none

/-- Whether a method reads; a response to `HEAD` loses its body. -/
def isRead (method : String) : Bool :=
  method == "GET" || method == "HEAD"

/-- The action of a method on a route. -/
def action? (route : Route) (method : String) : Option Action :=
  match route with
  | .health => if isRead method then some .health else none
  | .publishKeys => if method = "POST" then some .publishKeys else none
  | .lookUpKeys => if method = "POST" then some .lookUpKeys else none
  | .channelMode =>
    if isRead method then some .showMode else if method = "POST" then some .changeMode else none
  | .gpgKey => if isRead method then some .gpgKey else none

/-- The methods that a route allows, as a header names them. -/
def allowed : Route → String
  | .health => "GET,HEAD"
  | .publishKeys => "POST"
  | .lookUpKeys => "POST"
  | .channelMode => "GET,HEAD,POST"
  | .gpgKey => "GET,HEAD"

/-- Whether a route is open to requests that name no user. -/
def isPublic : Route → Bool
  | .health => true
  | _ => false

end Route

end Http

end SealedChannel
