import SealedChannel.Mode
import SealedChannel.Program
import SealedChannel.Storage.Key

/-!
# Stored encryption modes

The store has no transactions.  Within a process, changes to one channel are kept apart by a lock;
several channels may share one.  Where the store offers compare-and-set, a change is written only
over the value on which it was decided, which keeps processes apart as well.

## What is here

* `Modes` — how modes are read and changed.
* `Modes.get` — the mode of a channel; a failed read means no encryption.
* `Modes.setIfDifferent` — changes the mode of a channel and says whether it was another one.
-/

set_option autoImplicit false
namespace SealedChannel

/-- How modes are read and changed. -/
structure Modes where
  /-- The limit of a store call. -/
  limit : Duration
  /-- Whether the store offers compare-and-set. -/
  atomic : Bool
  /-- The number of locks. -/
  locks : Nat
  /-- The number from which the lock of a channel is taken. -/
  spread : String → Nat

namespace Modes

/-- The number of attempts on a value that others keep changing. -/
def rounds : Nat := 8

/-- The number of locks where nothing else is said. -/
def defaultLocks : Nat := 64

/-- The number from which the lock of a channel is taken where nothing else is said. -/
def defaultSpread (channelId : String) : Nat :=
  channelId.toList.foldl (fun n c => (31 * n + c.toNat) % UInt32.size) 0

/-- The lock of a channel; there is at least one lock. -/
def lockOf (m : Modes) (channelId : String) : Nat :=
  m.spread channelId % max m.locks 1

/-- The mode of a channel.  A read that fails means no encryption. -/
def get (m : Modes) (channelId : String) : Program Mode := do
  match ← (Operation.store m.limit (.get (Key.mode channelId))).run with
  | .ok raw => return Mode.current raw
  | .error _ => return .plain

/-- Reads the mode of a channel and writes the new one if it differs. -/
def replace (m : Modes) (channelId : String) (mode : Mode) : Operation StoreError Bool := do
  let raw : Option Bytes ← Operation.store m.limit (.get (Key.mode channelId))
  if Mode.current raw = mode then return false
  let _ ← Operation.store m.limit (.set (Key.mode channelId) mode.encode)
  return true

/-- Reads the mode of a channel and, if it differs, writes the new one over exactly the value that
was read; tries again while others change the value, for the given number of attempts. -/
def exchange (m : Modes) (channelId : String) (mode : Mode) : Nat → Operation StoreError Bool
  | 0 => throw (.conflict (Key.mode channelId))
  | attempts + 1 => do
    let raw : Option Bytes ← Operation.store m.limit (.get (Key.mode channelId))
    if Mode.current raw = mode then return false
    let swapped : Bool ←
      Operation.store m.limit (.compareAndSet (Key.mode channelId) raw mode.encode)
    if swapped then return true
    m.exchange channelId mode attempts

/-- Changes the mode of a channel, unless it is the new one already, and says whether it did. -/
def setIfDifferent (m : Modes) (channelId : String) (mode : Mode) : Operation StoreError Bool :=
  ExceptT.mk <| Program.locked (m.lockOf channelId) <|
    if m.atomic then (m.exchange channelId mode rounds).run else (m.replace channelId mode).run

end Modes

end SealedChannel
