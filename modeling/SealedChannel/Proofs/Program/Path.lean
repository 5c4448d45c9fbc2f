import SealedChannel.Proofs.Program.Contract
import SealedChannel.Proofs.Program.Exchange

/-!
# Paths through a program

The answers that a program has received so far single out one path through its tree of calls.  What
holds of the finished paths holds of every run that comes to an end, whatever happened between two
of its calls.

## What is here

* `Program.Leads` — a list of exchanges leads from a program to what is left of it.
* `Program.Yields` — a statement about every finished path; `simp` computes it, as it does
  `Program.Keeps`.
* `Program.Yields.of_leads` — what a program yields holds of the exchanges that led to its end.
-/

set_option autoImplicit false
namespace SealedChannel

/-- The answer to an exchange, if there is one, is one that a contract relies on. -/
def Contract.Trusts (k : Contract) (e : Exchange) : Prop :=
  ∀ answer, e.answer? = some answer → k.answers e.call answer

namespace Program

variable {α β : Type}

/-- The exchanges lead from one program to another. -/
inductive Leads : Program α → List Exchange → Program α → Prop
  | refl (p : Program α) : Leads p [] p
  | step {c : Call} {next : c.Answer → Program α} {answer : c.Answer} {exchanges : List Exchange}
      {rest : Program α} (h : Leads (next answer) exchanges rest) :
      Leads (.call c next) (⟨c, some answer⟩ :: exchanges) rest

/-- One more answer. -/
theorem Leads.snoc {p : Program α} {exchanges : List Exchange} {c : Call}
    {next : c.Answer → Program α} (h : p.Leads exchanges (.call c next)) (answer : c.Answer) :
    p.Leads (exchanges ++ [⟨c, some answer⟩]) (next answer) := by
  generalize hrest : Program.call c next = rest at h
  induction h with
  | refl p => subst hrest; exact .step (.refl _)
  | step _ ih => exact .step (ih hrest)

/-! ## Finished paths -/

/-- Every path to the end of the program, together with the value there, satisfies a statement. -/
def Yields : Program α → (List Exchange → α → Prop) → Prop
  | .done a, post => post [] a
  | .call c next, post =>
    ∀ answer, (next answer).Yields fun exchanges a => post (⟨c, some answer⟩ :: exchanges) a

theorem Yields.of_leads {post : List Exchange → α → Prop} {p : Program α}
    {exchanges : List Exchange} {a : α} (h : p.Yields post) (hp : p.Leads exchanges (.done a)) :
    post exchanges a := by
  generalize hrest : Program.done a = rest at hp
  induction hp generalizing post with
  | refl p => subst hrest; exact h
  | step _ ih => exact ih (h _) hrest

theorem Yields.imp {post post' : List Exchange → α → Prop} {p : Program α} (h : p.Yields post)
    (himp : ∀ exchanges a, post exchanges a → post' exchanges a) : p.Yields post' := by
  induction p generalizing post post' with
  | done a => exact himp [] a h
  | call c next ih => exact fun answer => ih answer (h answer) fun _ _ ha => himp _ _ ha

@[simp]
theorem yields_done {post : List Exchange → α → Prop} {a : α} :
    (Program.done a).Yields post ↔ post [] a :=
  Iff.rfl

@[simp]
theorem yields_pure {post : List Exchange → α → Prop} {a : α} :
    (pure a : Program α).Yields post ↔ post [] a :=
  Iff.rfl

@[simp]
theorem yields_bind {post : List Exchange → β → Prop} {p : Program α} {f : α → Program β} :
    (p >>= f).Yields post ↔
      p.Yields fun before a => (f a).Yields fun after b => post (before ++ after) b := by
  change (p.andThen f).Yields post ↔ _
  induction p generalizing post with
  | done a => rfl
  | call c next ih => exact forall_congr' fun answer => ih answer

@[simp]
theorem yields_locked {post : List Exchange → α → Prop} {lock : Nat} {p : Program α} :
    (locked lock p).Yields post ↔ p.Yields fun exchanges a =>
      post (⟨.acquire lock, some ()⟩ :: (exchanges ++ [⟨.release lock, some ()⟩])) a := by
  have hbody {post : List Exchange → α → Prop} :
      (p.andThen fun a => .call (.release lock) fun _ => .done a).Yields post ↔
        p.Yields fun exchanges a => post (exchanges ++ [⟨.release lock, some ()⟩]) a := by
    refine yields_bind.trans ⟨fun h => h.imp fun _ _ ha => ha (), fun h => h.imp fun _ _ ha => ?_⟩
    exact fun _ => ha
  rw [locked_eq]
  exact ⟨fun h => hbody.1 (h ()), fun h _ => hbody.2 h⟩

variable {ε : Type}

@[simp]
theorem yields_run_bind {post : List Exchange → Except ε β → Prop} {op : Operation ε α}
    {f : α → Operation ε β} :
    (op >>= f).run.Yields post ↔ op.run.Yields fun before r =>
      match r with
      | .ok a => (f a).run.Yields fun after b => post (before ++ after) b
      | .error e => post before (.error e) := by
  rw [ExceptT.run_bind, yields_bind]
  constructor
  · intro h
    refine h.imp fun before r hr => ?_
    cases r with
    | ok a => exact hr
    | error e => simpa using hr
  · intro h
    refine h.imp fun before r hr => ?_
    cases r with
    | ok a => exact hr
    | error e => simpa using hr

@[simp]
theorem yields_run_store {limit : Duration} {c : StoreCall}
    {post : List Exchange → Except StoreError c.Answer → Prop} :
    Yields (α := no_index _) (ExceptT.run (α := no_index _) (Operation.store limit c)) post ↔
      ∀ answer, post [⟨.store limit c, some answer⟩] answer :=
  Iff.rfl

end Program

end SealedChannel
