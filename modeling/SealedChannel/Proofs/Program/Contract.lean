import SealedChannel.Program

/-!
# Contracts

What a program may do can be said of its tree of calls alone, whatever else goes on around it: which
calls it may make, and what it comes to if its calls are answered as they should be.  A statement of
this kind holds in every run of the program, at once or in turns with others, whole or cut short.

## What is here

* `Contract` — the calls that are allowed and the answers that are relied on.
* `Program.Keeps` — the programs that keep a contract and establish a postcondition.
* `Program.keeps_bind` and the other equivalences — one for each way to put a program together, so
  that `simp` computes what a program owes.
* `Program.Keeps.imp`, `Program.Keeps.weaken` — weaker postconditions and laxer contracts.
* `Operation.Throws` — the errors that an operation may come to.
-/

set_option autoImplicit false
namespace SealedChannel

/-- The calls that a program may make, and the answers that it may rely on. -/
structure Contract where
  allows : Call → Prop
  answers : (c : Call) → c.Answer → Prop

namespace Program

variable {α β : Type} {k : Contract}

/-- Every call is allowed, and every value satisfies the postcondition, as long as the calls before
it are answered as the contract says. -/
def Keeps (k : Contract) : Program α → (α → Prop) → Prop
  | .done a, post => post a
  | .call c next, post => k.allows c ∧ ∀ answer, k.answers c answer → (next answer).Keeps k post

/-! ## Programs put together -/

@[simp]
theorem keeps_done {post : α → Prop} {a : α} : (Program.done a).Keeps k post ↔ post a :=
  Iff.rfl

@[simp]
theorem keeps_pure {post : α → Prop} {a : α} : (pure a : Program α).Keeps k post ↔ post a :=
  Iff.rfl

@[simp]
theorem keeps_bind {post : β → Prop} {p : Program α} {f : α → Program β} :
    (p >>= f).Keeps k post ↔ p.Keeps k fun a => (f a).Keeps k post := by
  change (p.andThen f).Keeps k post ↔ _
  induction p with
  | done a => rfl
  | call c next ih =>
    simp only [andThen, Keeps]
    exact and_congr_right fun _ => forall_congr' fun answer => imp_congr_right fun _ => ih answer

@[simp]
theorem keeps_map {post : β → Prop} {p : Program α} {f : α → β} :
    (f <$> p).Keeps k post ↔ p.Keeps k fun a => post (f a) := by
  rw [← bind_pure_comp, keeps_bind]
  rfl

@[simp]
theorem keeps_perform {c : Call} {post : c.Answer → Prop} :
    Keeps (α := no_index _) k (perform c) post ↔
      k.allows c ∧ ∀ answer, k.answers c answer → post answer :=
  Iff.rfl

/-- A weaker postcondition is established too. -/
theorem Keeps.imp {post post' : α → Prop} {p : Program α} (h : p.Keeps k post)
    (himp : ∀ a, post a → post' a) : p.Keeps k post' := by
  induction p with
  | done a => exact himp a h
  | call c next ih => exact ⟨h.1, fun answer ha => ih answer (h.2 answer ha)⟩

/-- A contract that allows more calls and promises more of their answers is kept too. -/
theorem Keeps.weaken {k' : Contract} {post : α → Prop} {p : Program α} (h : p.Keeps k post)
    (hallows : ∀ c, k.allows c → k'.allows c)
    (hanswers : ∀ c answer, k'.answers c answer → k.answers c answer) : p.Keeps k' post := by
  induction p with
  | done a => exact h
  | call c next ih =>
    exact ⟨hallows c h.1, fun answer ha => ih answer (h.2 answer (hanswers c answer ha))⟩

/-- A program that holds a lock, as a tree of calls. -/
theorem locked_eq (lock : Nat) (p : Program α) :
    locked lock p =
      .call (.acquire lock) fun _ => p.andThen fun a => .call (.release lock) fun _ => .done a :=
  rfl

@[simp]
theorem keeps_locked {post : α → Prop} {lock : Nat} {p : Program α} :
    (locked lock p).Keeps k post ↔ k.allows (.acquire lock) ∧ (k.answers (.acquire lock) () →
      p.Keeps k fun a => k.allows (.release lock) ∧ (k.answers (.release lock) () → post a)) := by
  have hbody : (p.andThen fun a => .call (.release lock) fun _ => .done a).Keeps k post ↔
      p.Keeps k fun a => k.allows (.release lock) ∧ (k.answers (.release lock) () → post a) := by
    refine keeps_bind.trans ⟨fun h => h.imp fun a ha => ?_, fun h => h.imp fun a ha => ?_⟩
    · exact ⟨ha.1, ha.2 ()⟩
    · exact ⟨ha.1, fun _ => ha.2⟩
  rw [locked_eq, Keeps]
  exact and_congr_right fun _ => ⟨fun h ha => hbody.1 (h () ha), fun h _ ha => hbody.2 (h ha)⟩

/-! ## Operations put together -/

variable {ε ε' : Type}

@[simp]
theorem keeps_run_bind {post : Except ε β → Prop} {op : Operation ε α} {f : α → Operation ε β} :
    (op >>= f).run.Keeps k post ↔ op.run.Keeps k fun r =>
      match r with
      | .ok a => (f a).run.Keeps k post
      | .error e => post (.error e) := by
  rw [ExceptT.run_bind, keeps_bind]
  refine ⟨fun h => h.imp fun r hr => ?_, fun h => h.imp fun r hr => ?_⟩ <;> cases r <;> exact hr

/-- One operation after another keeps a contract if both keep it, whatever the first one comes to. -/
theorem Keeps.run_bind {op : Operation ε α} {f : α → Operation ε β}
    (hop : op.run.Keeps k fun _ => True) (hf : ∀ a, (f a).run.Keeps k fun _ => True) :
    (op >>= f).run.Keeps k fun _ => True := by
  refine keeps_run_bind.2 (hop.imp fun result _ => ?_)
  cases result with
  | ok a => exact hf a
  | error e => trivial

@[simp]
theorem keeps_run_store {limit : Duration} {c : StoreCall}
    {post : Except StoreError c.Answer → Prop} :
    Keeps (α := no_index _) k (ExceptT.run (α := no_index _) (Operation.store limit c)) post ↔
      k.allows (.store limit c) ∧ ∀ answer, k.answers (.store limit c) answer → post answer :=
  Iff.rfl

@[simp]
theorem keeps_run_host {c : HostCall} {post : Except HostError c.Answer → Prop} :
    Keeps (α := no_index _) k (ExceptT.run (α := no_index _) (Operation.host c)) post ↔
      k.allows (.host c) ∧ ∀ answer, k.answers (.host c) answer → post answer :=
  Iff.rfl

@[simp]
theorem keeps_run_wrap {post : Except ε' α → Prop} {f : ε → ε'} {op : Operation ε α} :
    (Operation.wrap f op).run.Keeps k post ↔ op.run.Keeps k fun r => post (r.mapError f) := by
  rw [Operation.wrap, ExceptT.run_mk, keeps_map]

@[simp]
theorem keeps_run_attempt {post : Except ε' (Except ε α) → Prop} {op : Operation ε α} :
    (Operation.attempt op : Operation ε' (Except ε α)).run.Keeps k post ↔
      op.run.Keeps k fun r => post (.ok r) := by
  rw [Operation.attempt, ExceptT.run_mk, keeps_map]

end Program

/-! ## Errors -/

/-- The contract that allows every call and relies on no answer. -/
def Contract.lax : Contract :=
  ⟨fun _ => True, fun _ _ => True⟩

namespace Operation

open Program

variable {ε ε' α β : Type} {thrown : ε → Prop}

/-- Every error of an operation is one that may be thrown. -/
def Throws (thrown : ε → Prop) (op : Operation ε α) : Prop :=
  op.run.Keeps .lax fun r => ∀ e, r = .error e → thrown e

theorem keeps_lax {post : α → Prop} (h : ∀ a, post a) (p : Program α) : p.Keeps .lax post := by
  induction p with
  | done a => exact h a
  | call c next ih => exact ⟨trivial, fun answer _ => ih answer⟩

theorem throws_throw {e : ε} (h : thrown e) : (throw e : Operation ε α).Throws thrown := by
  rintro _ ⟨⟩
  exact h

/-- The errors of an operation that is seen as one of another kind. -/
theorem throws_wrap {f : ε' → ε} (h : ∀ e, thrown (f e)) (op : Operation ε' α) :
    (wrap f op).Throws thrown := by
  refine keeps_run_wrap.2 (keeps_lax (fun r => ?_) op.run)
  cases r with
  | ok a => rintro _ ⟨⟩
  | error e => rintro _ ⟨⟩; exact h e

/-- Errors of another kind that come from errors that may be thrown. -/
theorem Throws.wrap {thrown' : ε' → Prop} {op : Operation ε' α} (h : op.Throws thrown') (f : ε' → ε)
    (hf : ∀ e, thrown' e → thrown (f e)) : (Operation.wrap f op).Throws thrown := by
  refine keeps_run_wrap.2 (Keeps.imp h fun r hr => ?_)
  cases r with
  | ok a => rintro _ ⟨⟩
  | error e => rintro _ ⟨⟩; exact hf e (hr e rfl)

theorem throws_lift (p : Program α) : Throws thrown (ExceptT.lift p) := by
  refine keeps_map.2 (keeps_lax (fun a => ?_) p)
  rintro _ ⟨⟩

theorem throws_attempt (op : Operation ε' α) :
    (attempt op : Operation ε (Except ε' α)).Throws thrown := by
  refine keeps_run_attempt.2 (keeps_lax (fun r => ?_) op.run)
  rintro _ ⟨⟩

theorem Throws.map {op : Operation ε α} (h : op.Throws thrown) (f : α → β) :
    Throws thrown (f <$> op) := by
  rw [map_eq_pure_bind]
  refine keeps_run_bind.2 (Keeps.imp h fun r hr => ?_)
  cases r with
  | ok a => rintro _ ⟨⟩
  | error e => rintro _ ⟨⟩; exact hr e rfl

/-- What is thrown in a stronger sense is thrown in a weaker one. -/
theorem Throws.imp {thrown' : ε → Prop} {op : Operation ε α} (h : op.Throws thrown)
    (himp : ∀ e, thrown e → thrown' e) : op.Throws thrown' :=
  Keeps.imp h fun _ hr e he => himp e (hr e he)

theorem Throws.bind {op : Operation ε α} {f : α → Operation ε β} (h : op.Throws thrown)
    (hf : ∀ a, (f a).Throws thrown) : (op >>= f).Throws thrown := by
  refine keeps_run_bind.2 (Keeps.imp h fun r hr => ?_)
  cases r with
  | ok a => exact hf a
  | error e => rintro _ ⟨⟩; exact hr e rfl

end Operation

end SealedChannel
