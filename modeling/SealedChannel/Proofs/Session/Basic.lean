import SealedChannel.Proofs.Deployment.Basic
import SealedChannel.Proofs.Program.Ending
import SealedChannel.Proofs.Service.Demand

/-!
# Sessions

A session is one thing after another: the service meets demands, each to its end or until it is cut
off, while the conditions may change from call to call, and in between anything may happen around
it.

## What is here

* `Demand.limit?` — how long a demand may wait.
* `Session`, `Session.Step`, `Session.run` — the service and its world, and what may happen.
* `Session.exchanges` — the calls behind a demand.
* `Session.history` — what the steps of a session tell, in order.
* `Session.world_meet` — a demand leaves the world that its program leaves.
-/

set_option autoImplicit false
namespace SealedChannel

/-- How long a demand may wait. -/
def Demand.limit? : Demand → Option Duration
  | .answer _ => some Http.deadline
  | _ => none

/-- The service and everything that it calls. -/
structure Session where
  service : Service
  world : World

namespace Session

/-- What may happen. -/
inductive Step where
  /-- The service meets a demand, in some weather. -/
  | demand (weather : Weather) (demand : Demand)
  /-- Something happens around the service. -/
  | change (change : Change)

/-- The service meets a demand.  A request is answered within its deadline, and everything else may
take its time; an activation that succeeds makes the account known. -/
def meet (s : Session) (weather : Weather) : Demand → Session
  | .activate =>
    match s.service.activate.run.runAmid weather none s.world with
    | (.finished (.ok service), w) => ⟨service, w⟩
    | (_, w) => ⟨s.service, w⟩
  | .answer request => ⟨s.service, (Http.answerAmid weather s.service request s.world).2⟩
  | d => ⟨s.service, ((d.program s.service).runAmid weather none s.world).2⟩

/-- The calls behind a demand, with their answers. -/
def exchanges (s : Session) (weather : Weather) (d : Demand) : List Exchange :=
  (d.program s.service).transcriptAmid weather d.limit? s.world

/-- One step. -/
def step (s : Session) : Step → Session
  | .demand weather d => s.meet weather d
  | .change change => ⟨s.service, s.world.change change⟩

/-- A whole session. -/
def run (s : Session) (steps : List Step) : Session :=
  steps.foldl step s

/-- What the steps of a session tell, in order. -/
def history {α : Type} (tell : Session → Step → Option α) (s : Session) : List Step → List α
  | [] => []
  | event :: rest => (tell s event).toList ++ (s.step event).history tell rest

open Program

variable {s : Session} {key : String}

/-! ## The world after a step -/

/-- A demand leaves the world that its program leaves. -/
theorem world_meet (s : Session) (weather : Weather) (d : Demand) : (s.meet weather d).world =
    ((d.program s.service).runAmid weather d.limit? s.world).2 := by
  cases d with
  | activate =>
    rw [Demand.program, runAmid_map, meet]
    split <;> simp_all [Demand.limit?]
  | answer request =>
    rw [Demand.program, runAmid_map, meet, Http.answerAmid, Http.Api.serve]
    cases Http.Route.ofPath? request.path with
    | none => rfl
    | some route =>
      dsimp only
      rw [runAmid_map]
      rfl
  | _ =>
    rw [Demand.program, runAmid_map]
    exact congrArg Prod.snd (runAmid_map ..)

/-- No foreign write waits after a step, if none waited before. -/
theorem spares_step (hw : s.world.store.Spares key) (event : Step) :
    (s.step event).world.store.Spares key := by
  cases event with
  | change change => exact World.spares_change hw change
  | demand weather d =>
    rw [step, world_meet]
    exact spares_runAmid hw _ _ _

end Session

end SealedChannel
