import SealedChannel.Http.Api
import SealedChannel.World

/-!
# Answering requests in time

## What is here

* `Http.deadline` — how long a request may take.
* `Http.finish` — what a route does to a response, however the response came about.
* `Http.answer` — the response to a request within the deadline, and the world after it.  A request
  that takes longer is cut off between two calls, and so is one in which the platform crashes.
-/

set_option autoImplicit false
namespace SealedChannel
namespace Http

/-- How long a request may take. -/
def deadline : Duration :=
  .ofSeconds 5

/-- The response to the way in which a run ended. -/
def responseTo : Outcome Response → Response
  | .finished response => response
  | .expired => .empty 408
  | .stuck => .empty 408
  | .crashed => .text 500 "Internal server error"

/-- What a route does to a response: it names the allowed methods where the method is none of them,
and takes the body from a response to `HEAD` where it is. -/
def finish (route : Route) (r : Request) (response : Response) : Response :=
  match route.action? r.method with
  | none => { response with allow := some route.allowed }
  | some _ => if r.method = "HEAD" then response.withoutBody else response

/-- The response to a request, and the world after it. -/
def answer (s : Service) (r : Request) (w : World) : Response × World :=
  match Route.ofPath? r.path with
  | none => (.empty 404, w)
  | some route =>
    let (outcome, w) := (Api.respond s route r).run (some deadline) w
    (finish route r (responseTo outcome), w)

end Http

end SealedChannel
