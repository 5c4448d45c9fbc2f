import SealedChannel.Proofs.Program.Transcript

/-!
# Programs against a responder

A responder answers the same call in the same way each time, whatever was called before.  Against it
a program has one value and makes one list of calls, both told by the program alone; a run in a world
that answers these calls as the responder does comes to that value by these calls.

## What is here

* `Responder`, `World.Answers` — how calls are answered, and the worlds that answer so.
* `Program.value`, `Program.calls` — what a program comes to, and the calls that it makes.
* `Program.value_bind`, `Program.value_run_bind`, `Program.calls_bind` and the others — one for each
  way to put a program together.
* `Program.run_of_answers` — runs in a world that answers as the responder does.
-/

set_option autoImplicit false
namespace SealedChannel

/-- How calls are answered. -/
abbrev Responder : Type :=
  (c : Call) → c.Answer

/-- A world answers calls, one after another, as the responder does. -/
inductive World.Answers (r : Responder) : World → List Call → Prop
  | nil (w : World) : Answers r w []
  | cons {w w' : World} {c : Call} {rest : List Call} (hreact : w.react c = .answered (r c) w')
    (hrest : Answers r w' rest) : Answers r w (c :: rest)

namespace Program

variable {α β : Type}

/-- What a program comes to. -/
def value (r : Responder) : Program α → α
  | .done a => a
  | .call c next => (next (r c)).value r

/-- The calls that a program makes, first to last. -/
def calls (r : Responder) : Program α → List Call
  | .done _ => []
  | .call c next => c :: (next (r c)).calls r

variable {r : Responder}

/-! ## Programs put together -/

@[simp]
theorem value_pure (a : α) : (pure a : Program α).value r = a :=
  rfl

@[simp]
theorem calls_pure (a : α) : (pure a : Program α).calls r = [] :=
  rfl

@[simp]
theorem value_perform (c : Call) : value (α := no_index _) r (perform c) = r c :=
  rfl

@[simp]
theorem calls_perform (c : Call) : calls (α := no_index _) r (perform c) = [c] :=
  rfl

@[simp]
theorem value_bind (p : Program α) (f : α → Program β) :
    (p >>= f).value r = (f (p.value r)).value r := by
  change (p.andThen f).value r = _
  induction p with
  | done a => rfl
  | call c next ih => exact ih (r c)

@[simp]
theorem calls_bind (p : Program α) (f : α → Program β) :
    (p >>= f).calls r = p.calls r ++ (f (p.value r)).calls r := by
  change (p.andThen f).calls r = _
  induction p with
  | done a => rfl
  | call c next ih => exact congrArg (c :: ·) (ih (r c))

@[simp]
theorem value_map (p : Program α) (f : α → β) : (f <$> p).value r = f (p.value r) := by
  rw [← bind_pure_comp, value_bind, value_pure]

@[simp]
theorem calls_map (p : Program α) (f : α → β) : (f <$> p).calls r = p.calls r := by
  rw [← bind_pure_comp, calls_bind, calls_pure, List.append_nil]

/-! ## Operations put together -/

variable {ε ε' : Type}

@[simp]
theorem value_run_bind (op : Operation ε α) (f : α → Operation ε β) :
    (op >>= f).run.value r = op.run.value r >>= fun a => (f a).run.value r := by
  rw [ExceptT.run_bind, value_bind]
  cases op.run.value r <;> rfl

theorem calls_run_bind_of_ok {op : Operation ε α} {f : α → Operation ε β} {a : α}
    (h : op.run.value r = .ok a) :
    (op >>= f).run.calls r = op.run.calls r ++ (f a).run.calls r := by
  rw [ExceptT.run_bind, calls_bind, h]

/-- Nothing is called after a failure. -/
theorem calls_run_bind_of_error {op : Operation ε α} {f : α → Operation ε β} {e : ε}
    (h : op.run.value r = .error e) : (op >>= f).run.calls r = op.run.calls r := by
  rw [ExceptT.run_bind, calls_bind, h, calls_pure, List.append_nil]

/-- What a value is turned into calls nothing. -/
theorem calls_run_bind_pure (op : Operation ε α) (f : α → Except ε β) :
    (op >>= fun a => ExceptT.mk (pure (f a))).run.calls r = op.run.calls r := by
  cases h : op.run.value r with
  | error e => exact calls_run_bind_of_error h
  | ok a => rw [calls_run_bind_of_ok h, ExceptT.run_mk, calls_pure, List.append_nil]

@[simp]
theorem value_run_host (c : HostCall) :
    value (α := no_index _) r (ExceptT.run (α := no_index _) (Operation.host c)) = r (.host c) :=
  rfl

@[simp]
theorem calls_run_host (c : HostCall) :
    calls (α := no_index _) r (ExceptT.run (α := no_index _) (Operation.host c)) = [.host c] :=
  rfl

@[simp]
theorem value_run_wrap (f : ε → ε') (op : Operation ε α) :
    (Operation.wrap f op).run.value r = (op.run.value r).mapError f := by
  rw [Operation.wrap, ExceptT.run_mk, value_map]

@[simp]
theorem calls_run_wrap (f : ε → ε') (op : Operation ε α) :
    (Operation.wrap f op).run.calls r = op.run.calls r := by
  rw [Operation.wrap, ExceptT.run_mk, calls_map]

/-! ## Runs -/

theorem runFrom_of_answers {p : Program α} {waited : Duration} {w : World}
    (h : w.Answers r (p.calls r)) :
    (p.runFrom none waited w).1 = .finished (p.value r) ∧
      p.transcriptFrom none waited w = (p.calls r).map fun c => ⟨c, some (r c)⟩ := by
  induction p generalizing waited w with
  | done a => exact ⟨rfl, rfl⟩
  | call c next ih =>
    rw [calls] at h
    cases h with
    | cons hreact hrest =>
      obtain ⟨houtcome, htranscript⟩ := ih (r c) hrest
      rw [runFrom, transcriptFrom, hreact, calls, List.map_cons, ← htranscript]
      -- without a limit, no call waits too long
      exact ⟨houtcome, rfl⟩

/-- **Runs against a responder.**  In a world that answers the calls of a program as the responder
does, a run comes to the value of the program by these calls. -/
theorem run_of_answers {p : Program α} {w : World} (h : w.Answers r (p.calls r)) :
    (p.run none w).1 = .finished (p.value r) ∧
      p.transcript none w = (p.calls r).map fun c => ⟨c, some (r c)⟩ := by
  rw [run_fst]
  exact runFrom_of_answers h

end Program

end SealedChannel
