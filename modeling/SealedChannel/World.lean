import SealedChannel.Chat.Host
import SealedChannel.Program

/-!
# Running programs

A `World` is everything that programs call.  Time passes only while a store call waits, so a run
needs no clock: the waiting times are added up.

## What is here

* `World` — the store, the chat platform, a key server, and the locks that are held.
* `World.react` — what becomes of one call.
* `Outcome` — how a run ends.
* `Program.runFrom` — a run call by call, with an optional limit on the time it may wait.
* `Program.run` — a whole run; one that does not finish gives its locks back.
-/

set_option autoImplicit false
namespace SealedChannel

/-! ## Worlds -/

/-- Everything that programs call. -/
structure World where
  store : Store
  host : Host
  keyServer : KeyServer.Server
  /-- The locks that are held. -/
  held : List Nat
  deriving Repr

/-- What becomes of a call. -/
inductive Reaction (c : Call) where
  /-- The call is answered. -/
  | answered (answer : c.Answer) (w : World)
  /-- The platform crashes within the call. -/
  | crashed
  /-- The call waits for a lock that is held. -/
  | blocked

namespace World

/-- A world around a store. -/
def new (store : Store) : World :=
  ⟨store, .new, .unreachable, []⟩

/-- How long a call keeps its program waiting. -/
def waitFor (w : World) : Call → Duration
  | .store limit c => w.store.waitFor (some limit) c
  | _ => ⟨0⟩

/-- What a call does before it waits. -/
def begin (w : World) : Call → World
  | .store _ c => { w with store := w.store.begin c }
  | _ => w

/-- What becomes of a call. -/
def react (w : World) : (c : Call) → Reaction c
  | .store limit c =>
    let (answer, store) := w.store.call (some limit) c
    .answered answer { w with store := store }
  | .host c =>
    match w.host.call c with
    | none => .crashed
    | some (answer, host) => .answered answer { w with host := host }
  | .fetch target =>
    let (answer, keyServer) := w.keyServer.answer target
    .answered answer { w with keyServer := keyServer }
  | .acquire lock =>
    if w.held.contains lock then .blocked else .answered () { w with held := lock :: w.held }
  | .release lock => .answered () { w with held := w.held.erase lock }

end World

/-! ## Runs -/

/-- How a run ends. -/
inductive Outcome (α : Type) where
  /-- The program is done. -/
  | finished (value : α)
  /-- The time limit passed while a call was waiting. -/
  | expired
  /-- The platform crashed within a call. -/
  | crashed
  /-- The program waits for a lock that nobody gives back. -/
  | stuck
  deriving Repr

/-- The value of a run that finished. -/
def Outcome.value? {α : Type} : Outcome α → Option α
  | .finished a => some a
  | _ => none

namespace Program

variable {α : Type}

/-- Whether a waiting time reaches the limit. -/
def isOver (limit : Option Duration) (waited : Duration) : Bool :=
  match limit with
  | none => false
  | some limit => !(waited < limit)

/-- A run of a program that has waited for a while already. -/
def runFrom (limit : Option Duration) : Program α → Duration → World → Outcome α × World
  | .done a, _, w => (.finished a, w)
  | .call c next, waited, w =>
    let waited := waited + w.waitFor c
    if isOver limit waited then (.expired, w.begin c)
    else
      match w.react c with
      | .answered answer w => (next answer).runFrom limit waited w
      | .crashed => (.crashed, w)
      | .blocked => (.stuck, w)

/-- A whole run.  A run that does not finish gives the locks back that it took. -/
def run (limit : Option Duration) (p : Program α) (w : World) : Outcome α × World :=
  match p.runFrom limit ⟨0⟩ w with
  | (.finished a, w') => (.finished a, w')
  | (outcome, w') => (outcome, { w' with held := w.held })

end Program

end SealedChannel
