import SealedChannel.Http.Target
import SealedChannel.Json.Printer

/-!
# HTTP messages

## What is here

* `Http.Request`, `Http.Response` — the messages.
* `Response.empty`, `Response.text`, `Response.json` — the three kinds of response.
-/

set_option autoImplicit false
namespace SealedChannel
namespace Http

/-- A request. -/
structure Request where
  method : String
  uri : String
  /-- The value of the header in which the platform names the user. -/
  userHeader : Option Bytes
  body : Bytes
  deriving DecidableEq, Repr

namespace Request

/-- The path of a request. -/
def path (r : Request) : String :=
  (Target.ofUrl r.uri).path

/-- The query of a request; empty if there is none. -/
def query (r : Request) : String :=
  (Target.ofUrl r.uri).query.getD ""

end Request

/-- A response. -/
structure Response where
  status : Nat
  contentType : Option String
  /-- The methods that the path allows, where the request used another one. -/
  allow : Option String
  body : Bytes
  deriving DecidableEq, Repr

namespace Response

/-- A response without a body. -/
def empty (status : Nat) : Response :=
  ⟨status, none, none, []⟩

/-- A response with a text. -/
def text (status : Nat) (body : String) : Response :=
  ⟨status, some "text/plain; charset=utf-8", none, Bytes.ofText body⟩

/-- A successful response with a JSON value. -/
def json (value : Json) : Response :=
  ⟨200, some "application/json", none, value.print⟩

/-- A response without its body. -/
def withoutBody (r : Response) : Response :=
  { r with body := [] }

end Response

end Http

end SealedChannel
