import SealedChannel.Proofs.Program.Transcript

/-!
# Programs and their locks

A program that takes a lock which it holds already waits for itself, and one that forgets to give a
lock back keeps everybody else waiting.  Neither happens to a program that *restores* the locks with
which it begins: when it is done it holds the same ones again, and on the way it never takes a lock
that it has.

## What is here

* `Call.locksAfter`, `World.held_react` — the locks after a call.
* `Program.Holds`, `Program.Restores` — the locks with which a program comes to its end.
* `Restores.bind`, `Restores.locked` and the other rules — one for each way to put a program
  together.
* `Program.Restores.run` — such a program is never stuck and leaves no lock behind.
-/

set_option autoImplicit false
namespace SealedChannel

/-! ## Locks and calls -/

/-- The locks that a program holds after a call, given those that it held before. -/
def Call.locksAfter : Call → List Nat → List Nat
  | .acquire lock, locks => lock :: locks
  | .release lock, locks => locks.erase lock
  | _, locks => locks

namespace World

variable {w w' : World} {c : Call} {answer : c.Answer}

/-- The locks after an answered call. -/
theorem held_react (h : w.react c = .answered answer w') : w'.held = c.locksAfter w.held := by
  cases c with
  | host c =>
    rw [react] at h
    split at h
    · cases h
    · cases h; rfl
  | acquire lock =>
    rw [react] at h
    split at h
    · cases h
    · cases h; rfl
  | _ => cases h; rfl

/-- A lock is taken only while it is free. -/
theorem free_of_react {lock : Nat} {answer : (Call.acquire lock).Answer}
    (h : w.react (.acquire lock) = .answered answer w') : lock ∉ w.held := by
  rw [react] at h
  split at h
  · cases h
  · rename_i hfree
    simpa using hfree

/-- A lock that is free can be taken. -/
theorem react_acquire {lock : Nat} (h : lock ∉ w.held) :
    w.react (.acquire lock) = .answered () { w with held := lock :: w.held } := by
  rw [react, if_neg (by simpa using h)]

/-- A call waits only for a lock that is held. -/
theorem mem_held_of_blocked (h : w.react c = .blocked) :
    ∃ lock, c = .acquire lock ∧ lock ∈ w.held := by
  cases c with
  | host c =>
    rw [react] at h
    split at h <;> cases h
  | acquire lock =>
    rw [react] at h
    split at h
    · rename_i hheld
      exact ⟨lock, rfl, by simpa using hheld⟩
    · cases h
  | _ => cases h

end World

namespace Program

variable {α β ε ε' : Type} {held last : List Nat}

/-- A program that begins with some locks never takes one of those that it has, and comes to its end
with the locks `last`. -/
def Holds (last : List Nat) : Program α → List Nat → Prop
  | .done _, held => held = last
  | .call c next, held =>
    (∀ lock, c = .acquire lock → lock ∉ held) ∧
      ∀ answer, (next answer).Holds last (c.locksAfter held)

theorem Holds.bind {middle : List Nat} {p : Program α} {f : α → Program β}
    (hp : p.Holds middle held) (hf : ∀ a, (f a).Holds last middle) :
    (p >>= f).Holds last held := by
  change (p.andThen f).Holds last held
  induction p generalizing held with
  | done a =>
    obtain rfl : held = middle := hp
    exact hf a
  | call c next ih => exact ⟨hp.1, fun answer => ih answer (hp.2 answer)⟩

/-- A program that comes to its end with the locks with which it begins. -/
def Restores (held : List Nat) (p : Program α) : Prop :=
  p.Holds held held

namespace Restores

/-! ## Programs -/

theorem pure (a : α) : (Pure.pure a : Program α).Restores held :=
  rfl

theorem bind {p : Program α} {f : α → Program β} (hp : p.Restores held)
    (hf : ∀ a, (f a).Restores held) : (p >>= f).Restores held :=
  Holds.bind hp hf

theorem map {p : Program α} {f : α → β} (hp : p.Restores held) : (f <$> p).Restores held := by
  rw [← bind_pure_comp]
  exact bind hp fun _ => pure _

/-- A lock is free to be taken if it is not among those that are held. -/
theorem locked {lock : Nat} {p : Program α} (hfree : lock ∉ held)
    (hp : p.Restores (lock :: held)) : (Program.locked lock p).Restores held := by
  rw [locked_eq]
  refine ⟨?_, fun _ => Holds.bind hp fun a => ⟨?_, fun _ => ?_⟩⟩
  · rintro _ ⟨⟩
    exact hfree
  · rintro _ ⟨⟩
  · exact List.erase_cons_head lock held

/-- A request to a key server. -/
theorem fetch (target : Http.Target) : (perform (.fetch target)).Restores held :=
  ⟨by rintro _ ⟨⟩, fun _ => rfl⟩

/-! ## Operations -/

theorem run_pure (a : α) : (Pure.pure a : Operation ε α).run.Restores held :=
  rfl

theorem run_throw (e : ε) : (throw e : Operation ε α).run.Restores held :=
  rfl

theorem run_bind {op : Operation ε α} {f : α → Operation ε β} (hop : op.run.Restores held)
    (hf : ∀ a, (f a).run.Restores held) : (op >>= f).run.Restores held := by
  rw [ExceptT.run_bind]
  refine bind hop fun result => ?_
  cases result with
  | ok a => exact hf a
  | error e => exact pure _

theorem run_wrap {f : ε → ε'} {op : Operation ε α} (hop : op.run.Restores held) :
    (Operation.wrap f op).run.Restores held :=
  map hop

theorem run_attempt {op : Operation ε α} (hop : op.run.Restores held) :
    (Operation.attempt op : Operation ε' (Except ε α)).run.Restores held :=
  map hop

theorem run_lift {p : Program α} (hp : p.Restores held) :
    (ExceptT.lift p : Operation ε α).run.Restores held :=
  map hp

theorem run_store (limit : Duration) (c : StoreCall) :
    (Operation.store limit c).run.Restores held :=
  ⟨by rintro _ ⟨⟩, fun _ => rfl⟩

theorem run_host (c : HostCall) : (Operation.host c).run.Restores held :=
  ⟨by rintro _ ⟨⟩, fun _ => rfl⟩

end Restores

/-! ## Runs -/

/-- A run from some locks on is not stuck, and comes to its end with the locks of its program. -/
theorem Holds.runFrom {p : Program α} {w : World} (h : p.Holds last w.held)
    (limit : Option Duration) (waited : Duration) :
    (p.runFrom limit waited w).1 ≠ .stuck ∧
      ∀ a, (p.runFrom limit waited w).1 = .finished a → (p.runFrom limit waited w).2.held = last := by
  induction p generalizing waited w with
  | done a => exact ⟨by rintro ⟨⟩, fun _ _ => h⟩
  | call c next ih =>
    rw [Program.runFrom]
    split
    · exact ⟨by rintro ⟨⟩, by rintro a ⟨⟩⟩
    · cases hreact : w.react c with
      | answered answer w' =>
        have hnext := h.2 answer
        rw [← World.held_react hreact] at hnext
        exact ih answer hnext _
      | crashed => exact ⟨by rintro ⟨⟩, by rintro a ⟨⟩⟩
      | blocked =>
        obtain ⟨lock, hc, hheld⟩ := World.mem_held_of_blocked hreact
        exact absurd hheld (h.1 lock hc)

/-- **No lock is left behind.**  A whole run of a program that restores its locks is never stuck, and
the locks after it are those before it, whether or not the run comes to its end. -/
theorem Restores.run {p : Program α} {w : World} (h : p.Restores w.held)
    (limit : Option Duration) : (p.run limit w).1 ≠ .stuck ∧ (p.run limit w).2.held = w.held := by
  obtain ⟨hstuck, hlast⟩ := Holds.runFrom h limit ⟨0⟩
  rw [Program.run]
  generalize p.runFrom limit ⟨0⟩ w = ending at hstuck hlast
  obtain ⟨outcome, w'⟩ := ending
  cases outcome with
  | finished a => exact ⟨by rintro ⟨⟩, hlast a rfl⟩
  | stuck => exact absurd rfl hstuck
  | _ => exact ⟨by rintro ⟨⟩, rfl⟩

-- which locks are restored is computed by the rules alone, never by running the program
attribute [irreducible] Restores

end Program

end SealedChannel
