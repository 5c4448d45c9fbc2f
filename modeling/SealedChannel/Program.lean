import SealedChannel.Chat.HostCall
import SealedChannel.KeyServer.Server
import SealedChannel.Storage.Store

/-!
# Programs that make calls

What the service does is described without doing it: a `Program` is either done or makes one call
and goes on with the answer.  Several programs can then be run one after another, interleaved call
by call, or cut short between two calls, all by the same description.

## What is here

* `Call` — a call to the store, the chat platform or a key server, or a step of a lock.
* `Program` — the programs, a lawful monad.
* `Operation` — a program that may fail.
* `Program.locked` — a program that holds a lock while it runs.
-/

set_option autoImplicit false
namespace SealedChannel

/-! ## Calls -/

/-- A call that a program makes. -/
inductive Call where
  /-- A call to the store under a time limit. -/
  | store (limit : Duration) (call : StoreCall)
  /-- A call to the chat platform. -/
  | host (call : HostCall)
  /-- A request to a key server. -/
  | fetch (target : Http.Target)
  /-- Waits until a lock is free, and takes it. -/
  | acquire (lock : Nat)
  /-- Gives a lock back. -/
  | release (lock : Nat)

/-- What a call answers. -/
@[reducible]
def Call.Answer : Call → Type
  | .store _ c => Except StoreError c.Answer
  | .host c => Except HostError c.Answer
  | .fetch _ => Except String KeyServer.Reply
  | .acquire _ => Unit
  | .release _ => Unit

/-! ## Programs -/

/-- A program: done, or one call and what to do with its answer. -/
inductive Program (α : Type) where
  | done (value : α)
  | call (c : Call) (next : c.Answer → Program α)

namespace Program

variable {α β γ : Type}

/-- Runs a program and then the one that its value asks for. -/
def andThen : Program α → (α → Program β) → Program β
  | .done a, f => f a
  | .call c next, f => .call c fun answer => (next answer).andThen f

instance : Monad Program where
  pure := .done
  bind := andThen

theorem andThen_done (p : Program α) : p.andThen .done = p := by
  induction p with
  | done a => rfl
  | call c next ih =>
    simp only [andThen]
    exact congrArg _ (funext ih)

theorem andThen_assoc (p : Program α) (f : α → Program β) (g : β → Program γ) :
    (p.andThen f).andThen g = p.andThen fun a => (f a).andThen g := by
  induction p with
  | done a => rfl
  | call c next ih =>
    simp only [andThen]
    exact congrArg _ (funext ih)

instance : LawfulMonad Program :=
  LawfulMonad.mk' Program andThen_done (fun _ _ => rfl) andThen_assoc

/-! ## Single calls -/

/-- Makes one call. -/
def perform (c : Call) : Program c.Answer :=
  .call c .done

/-- Runs a program while holding a lock. -/
def locked (lock : Nat) (p : Program α) : Program α := do
  perform (.acquire lock)
  let a ← p
  perform (.release lock)
  return a

end Program

/-! ## Operations -/

/-- A program that may fail. -/
abbrev Operation (ε α : Type) : Type :=
  ExceptT ε Program α

namespace Operation

variable {ε ε' α : Type}

/-- A call to the store. -/
def store (limit : Duration) (c : StoreCall) : Operation StoreError c.Answer :=
  ExceptT.mk (Program.perform (.store limit c))

/-- A call to the chat platform. -/
def host (c : HostCall) : Operation HostError c.Answer :=
  ExceptT.mk (Program.perform (.host c))

/-- An operation whose errors are seen as errors of another kind. -/
def wrap (f : ε → ε') (op : Operation ε α) : Operation ε' α :=
  ExceptT.mk (Except.mapError f <$> op.run)

/-- Runs an operation and goes on whether or not it fails. -/
def attempt (op : Operation ε α) : Operation ε' (Except ε α) :=
  ExceptT.mk (Except.ok <$> op.run)

end Operation

end SealedChannel
