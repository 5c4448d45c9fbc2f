import SealedChannel.Storage.StoreError
import SealedChannel.Storage.Table

/-!
# The byte store

The service keeps everything in a remote store of byte strings under text keys.  Its calls may be
slow or fail, other processes write to it as well, and not every deployment offers
compare-and-set.  A `Store` holds the entries together with what is to happen to the next calls, so
that each of these situations is a value.

## What is here

* `StoreCall` — the four calls, with the type of their answers in `StoreCall.Answer`.
* `Store` — the entries, the faults in force, foreign writes that wait for their moment, and the
  numbers of reads and writes so far.
* `Store.perform` — a call that reaches the store.
* `Store.call` — a call under a time limit; a call that is too slow has no effect.
-/

set_option autoImplicit false
namespace SealedChannel

/-! ## Calls -/

/-- A call to the store. -/
inductive StoreCall where
  /-- The value under a key. -/
  | get (key : String)
  /-- Writes a value under a key. -/
  | set (key : String) (value : Bytes)
  /-- Removes a key. -/
  | delete (key : String)
  /-- Writes `value` if the value under the key is `expected`, where `none` means absent. -/
  | compareAndSet (key : String) (expected : Option Bytes) (value : Bytes)
  deriving DecidableEq, Repr

/-- What a call answers if it succeeds. -/
@[reducible]
def StoreCall.Answer : StoreCall → Type
  | .get _ => Option Bytes
  | .set _ _ => Unit
  | .delete _ => Unit
  | .compareAndSet _ _ _ => Bool

/-! ## Stores -/

/-- A write by another process. -/
structure ForeignWrite where
  key : String
  value : Bytes
  deriving DecidableEq, Repr

/-- The byte store and what is to happen to its next calls. -/
structure Store where
  entries : Table Bytes
  /-- Whether faults can be put in force and calls are counted. -/
  scripted : Bool
  /-- Whether compare-and-set is offered. -/
  atomic : Bool
  /-- How long a call takes. -/
  latency : Duration
  refuseGets : Bool
  refuseSets : Bool
  refuseDeletes : Bool
  /-- Foreign writes that wait for a write of the service to begin. -/
  queued : List ForeignWrite
  /-- The foreign write that will come just before the next write that reaches the entries. -/
  armed : Option ForeignWrite
  /-- The number of reads that reached the store. -/
  gets : Nat
  /-- The number of writes that reached the store. -/
  writes : Nat
  deriving Repr

namespace Store

/-- An empty store without faults. -/
def new (scripted atomic : Bool) : Store :=
  ⟨.empty, scripted, atomic, ⟨0⟩, false, false, false, [], none, 0, 0⟩

/-- A store in memory, which offers compare-and-set and never fails. -/
def memory : Store :=
  new false true

/-- The value under a key. -/
def get? (s : Store) (key : String) : Option Bytes :=
  s.entries.get? key

/-- Writes a value past all faults. -/
def seed (s : Store) (key : String) (value : Bytes) : Store :=
  { s with entries := s.entries.insert key value }

/-- Changes what is to happen to the next calls, where the store allows it. -/
def script (s : Store) (change : Store → Store) : Store :=
  if s.scripted then change s else s

/-- Lets a foreign write wait for the next write that begins. -/
def enqueue (s : Store) (write : ForeignWrite) : Store :=
  s.script fun s => { s with queued := s.queued ++ [write] }

/-! ## Performing a call -/

/-- The first waiting foreign write takes the place of the one that is armed. -/
def arm (s : Store) : Store :=
  match s.queued with
  | [] => s
  | write :: rest => { s with queued := rest, armed := some write }

/-- What a call does to the store before it waits: a write that the store offers arms the next
foreign write. -/
def begin (s : Store) : StoreCall → Store
  | .get _ | .delete _ => s
  | .set _ _ => s.arm
  | .compareAndSet _ _ _ => if s.atomic then s.arm else s

/-- The armed foreign write takes place. -/
def interfere (s : Store) : Store :=
  match s.armed with
  | none => s
  | some write => { s with entries := s.entries.insert write.key write.value, armed := none }

/-- Counts a write; a refused one stops here, another one lets the armed foreign write pass. -/
def admitWrite (s : Store) : Except StoreError Unit × Store :=
  let s := { s with writes := s.writes + 1 }
  if s.refuseSets then (.error (.backend "injected set failure"), s) else (.ok (), s.interfere)

/-- A call that has waited and now reaches the store. -/
def perform (s : Store) : (c : StoreCall) → Except StoreError c.Answer × Store
  | .get key =>
    let s := { s with gets := s.gets + 1 }
    if s.refuseGets then (.error (.backend "injected get failure"), s)
    else (.ok (s.entries.get? key), s)
  | .set key value =>
    match s.admitWrite with
    | (.error e, s) => (.error e, s)
    | (.ok (), s) => (.ok (), { s with entries := s.entries.insert key value })
  | .delete key =>
    if s.refuseDeletes then (.error (.backend "injected delete failure"), s)
    else (.ok (), { s with entries := s.entries.erase key })
  | .compareAndSet key expected value =>
    match s.admitWrite with
    | (.error e, s) => (.error e, s)
    | (.ok (), s) =>
      if s.entries.get? key = expected then
        (.ok true, { s with entries := s.entries.insert key value })
      else (.ok false, s)

/-- Whether the store offers a call. -/
def offers (s : Store) : StoreCall → Bool
  | .compareAndSet _ _ _ => s.atomic
  | _ => true

/-- How long a call keeps its caller waiting, given the limit. -/
def waitFor (s : Store) (limit : Option Duration) (c : StoreCall) : Duration :=
  if s.offers c then
    match limit with
    | none => s.latency.onClock
    | some limit => min s.latency.onClock limit.onClock
  else ⟨0⟩

/-- The limit that a call exceeds, if it is too slow.  A call whose answer comes with the tick of
the limit is in time. -/
def exceeded? (s : Store) (limit : Option Duration) : Option Duration :=
  limit.filter fun limit => limit.onClock < s.latency.onClock

/-- A call under a limit.  A call that is too slow ends in a time-out after it has begun and before
it reaches the store. -/
def call (s : Store) (limit : Option Duration) (c : StoreCall) :
    Except StoreError c.Answer × Store :=
  if s.offers c then
    match s.exceeded? limit with
    | some limit => (.error (.timeout limit), s.begin c)
    | none => (s.begin c).perform c
  else (.error (.unsupported "compare_and_set"), s)

end Store

end SealedChannel
