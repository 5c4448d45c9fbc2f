import SealedChannel.Proofs.Program.Latency

/-!
# Stores that are too slow

If a store does not answer within the limit, the first store call of a program times out, and what
counts is what the program does then.  A program that ends there has done nothing, and what it
comes to is known beforehand.

## What is here

* `World.HeldUp` — what is left of a store that is too slow, and of the platform beside it.
* `Program.Stops` — a program that ends with its first store call, if that times out.
* `Program.stops_bind` and the other equivalences — one for each way to put a program together.
* `Stops.run_bind`, `Stops.run_wrap` and the other rules — operations that fail if their first store
  call times out.
* `Program.Storeless` — a program that makes no store call, with its rules.
* `Program.Stops.heldUp_run`, `Program.Stops.run_withLatency` — what such a program leaves, and what
  it comes to.
-/

set_option autoImplicit false
namespace SealedChannel

/-! ## Calls that time out -/

/-- Nothing is done but that locks are given back. -/
def Contract.closing : Contract where
  allows c := ∃ lock, c = .release lock
  answers _ _ := True

/-- The platform is asked nothing but what is quiet, and every store call is one that every store
offers, is made under one limit, and times out. -/
def Contract.delayed (limit : Duration) (quiet : HostCall → Prop) : Contract where
  allows
    | .store other c => other = limit ∧ ∀ s : Store, s.offers c = true
    | .host c => quiet c
    | _ => True
  answers
    | .store _ _, answer => answer = .error (.timeout limit)
    | _, _ => True

/-- What is left of a store that is too slow, and of the platform beside it: nothing was read or
written, and an invariant of the platform holds. -/
structure World.HeldUp (limit : Duration) (invariant : Host → Prop) (s : Store) (w : World) :
    Prop where
  latency : w.store.latency.Exceeds limit
  entries : w.store.entries = s.entries
  gets : w.store.gets = s.gets
  writes : w.store.writes = s.writes
  host : invariant w.host

/-- A call that the platform answers keeps an invariant. -/
def Host.Preserves (invariant : Host → Prop) (c : HostCall) : Prop :=
  ∀ h answer h', invariant h → h.call c = some (answer, h') → invariant h'

/-- A step that moves foreign writes and does nothing else. -/
theorem World.HeldUp.moved {limit : Duration} {invariant : Host → Prop} {s : Store} {w w' : World}
    (h : w.HeldUp limit invariant s) (queued : List ForeignWrite) (armed : Option ForeignWrite)
    (hstore : w'.store = { w.store with queued, armed }) (hhost : w'.host = w.host) :
    w'.HeldUp limit invariant s := by
  constructor <;> simp only [hstore, hhost]
  exacts [h.latency, h.entries, h.gets, h.writes, h.host]

theorem Contract.upheld_delayed {limit : Duration} {quiet : HostCall → Prop}
    {invariant : Host → Prop} (hquiet : ∀ c, quiet c → Host.Preserves invariant c) (s : Store) :
    (Contract.delayed limit quiet).Upheld (World.HeldUp limit invariant s) where
  held _ h := ⟨h.latency, h.entries, h.gets, h.writes, h.host⟩
  begin {w c} h _ := by
    cases c with
    | store other c =>
      obtain ⟨queued, armed, hbegin⟩ := w.store.exists_begin_eq c
      exact h.moved queued armed hbegin rfl
    | _ => exact h
  react {w c answer w'} h hc hreact := by
    cases c with
    | store other c =>
      obtain ⟨rfl, hoffers⟩ := hc
      obtain ⟨hanswer, hstore⟩ := World.react_store hreact
      rw [Store.call_of_exceeds h.latency (hoffers w.store)] at hanswer hstore
      obtain ⟨queued, armed, hbegin⟩ := w.store.exists_begin_eq c
      exact ⟨hanswer.symm, h.moved queued armed (hstore.trans hbegin)
        (World.host_react (by rintro _ ⟨⟩) hreact)⟩
    | host c =>
      rw [World.react] at hreact
      split at hreact
      · cases hreact
      · rename_i hcall
        cases hreact
        exact ⟨trivial, h.latency, h.entries, h.gets, h.writes, hquiet c hc _ _ _ h.host hcall⟩
    | _ =>
      exact ⟨trivial, h.moved w.store.queued w.store.armed
        (World.store_react (by rintro _ _ ⟨⟩) hreact) (World.host_react (by rintro _ ⟨⟩) hreact)⟩

namespace Program

variable {α β : Type} {limit latency : Duration} {quiet : HostCall → Prop} {late post : α → Prop}
  {p : Program α} {w : World}

/-- A program that only gives locks back comes to its end. -/
theorem Keeps.runFrom_closing (h : p.Keeps .closing post) (waited : Duration) (w : World) :
    ∃ a, post a ∧ (p.runFrom none waited w).1 = .finished a := by
  induction p generalizing waited w with
  | done a => exact ⟨a, h, rfl⟩
  | call c next ih =>
    obtain ⟨lock, rfl⟩ := h.1
    exact ih () (h.2 () trivial) _ _

/-- A program makes no call to the platform that is not quiet, and ends with its first store call,
if that times out: it gives its locks back and comes to a value that is late.  A program that makes
no store call comes to a value that satisfies the postcondition. -/
def Stops (limit : Duration) (quiet : HostCall → Prop) (late post : α → Prop) : Program α → Prop
  | .done a => post a
  | .call (.store other c) next =>
    (other = limit ∧ ∀ s : Store, s.offers c = true) ∧
      (next (.error (.timeout limit))).Keeps .closing late
  | .call (.host c) next => quiet c ∧ ∀ answer, (next answer).Stops limit quiet late post
  | .call (.fetch _) next => ∀ answer, (next answer).Stops limit quiet late post
  | .call (.acquire _) next => (next ()).Stops limit quiet late post
  | .call (.release _) next => (next ()).Stops limit quiet late post

/-! ## Programs put together -/

theorem stops_bind {late post : β → Prop} {f : α → Program β} :
    (p >>= f).Stops limit quiet late post ↔
      p.Stops limit quiet (fun a => (f a).Keeps .closing late)
        fun a => (f a).Stops limit quiet late post := by
  change (p.andThen f).Stops limit quiet late post ↔ _
  induction p with
  | done a => rfl
  | call c next ih =>
    cases c with
    | store other c => exact and_congr_right fun _ => keeps_bind
    | host c => exact and_congr_right fun _ => forall_congr' ih
    | fetch target => exact forall_congr' ih
    | acquire lock => exact ih ()
    | release lock => exact ih ()

theorem stops_map {late post : β → Prop} {f : α → β} :
    (f <$> p).Stops limit quiet late post ↔
      p.Stops limit quiet (fun a => late (f a)) fun a => post (f a) := by
  rw [← bind_pure_comp, stops_bind]
  rfl

/-- More values may be late, and more may be the value of a program that makes no store call. -/
theorem Stops.imp {late' post' : α → Prop} (h : p.Stops limit quiet late post)
    (hlate : ∀ a, late a → late' a) (hpost : ∀ a, post a → post' a) :
    p.Stops limit quiet late' post' := by
  induction p with
  | done a => exact hpost a h
  | call c next ih =>
    cases c with
    | store other c => exact ⟨h.1, h.2.imp hlate⟩
    | host c => exact ⟨h.1, fun answer => ih answer (h.2 answer)⟩
    | fetch target => exact fun answer => ih answer (h answer)
    | acquire lock => exact ih () h
    | release lock => exact ih () h

theorem stops_locked {lock : Nat} :
    (locked lock p).Stops limit quiet late post ↔ p.Stops limit quiet late post := by
  have hrelease (a : α) : (Program.call (.release lock) fun _ => .done a).Keeps .closing late ↔
      late a := ⟨fun h => h.2 () trivial, fun h => ⟨⟨lock, rfl⟩, fun _ _ => h⟩⟩
  rw [locked_eq]
  refine stops_bind.trans ⟨fun h => h.imp (fun a => (hrelease a).1) fun _ h => h, fun h => ?_⟩
  exact h.imp (fun a => (hrelease a).2) fun _ h => h

/-! ## Operations put together -/

variable {ε ε' : Type}

theorem stops_run_bind {late post : Except ε β → Prop} {op : Operation ε α}
    {f : α → Operation ε β} :
    (op >>= f).run.Stops limit quiet late post ↔
      op.run.Stops limit quiet
        (fun r => match r with
          | .ok a => (f a).run.Keeps .closing late
          | .error e => late (.error e))
        fun r => match r with
          | .ok a => (f a).run.Stops limit quiet late post
          | .error e => post (.error e) := by
  rw [ExceptT.run_bind, stops_bind]
  refine ⟨fun h => h.imp (fun r hr => ?_) fun r hr => ?_,
    fun h => h.imp (fun r hr => ?_) fun r hr => ?_⟩ <;> cases r <;> exact hr

/-- A program makes no store call, and no call to the platform that is not quiet. -/
def Storeless (limit : Duration) (quiet : HostCall → Prop) (p : Program α) : Prop :=
  p.Stops limit quiet (fun _ => False) fun _ => True

namespace Stops

variable {ends : Prop} {op : Operation ε α} {e : ε}

/-- A call to the store under the limit. -/
theorem run_store {c : StoreCall} (hc : ∀ s : Store, s.offers c = true) :
    (Operation.store limit c).run.Stops limit quiet (· = .error (.timeout limit)) fun _ => ends :=
  ⟨⟨rfl, hc⟩, rfl⟩

/-- The errors of an operation that is seen as one of another kind. -/
theorem run_wrap {f : ε → ε'} (h : op.run.Stops limit quiet (· = .error e) fun _ => ends) :
    (Operation.wrap f op).run.Stops limit quiet (· = .error (f e)) fun _ => ends := by
  refine stops_map.2 (h.imp ?_ fun _ hends => hends)
  rintro _ rfl
  rfl

theorem run_lift {a : α} (h : p.Stops limit quiet (· = a) fun _ => ends) :
    (ExceptT.lift p : Operation ε α).run.Stops limit quiet (· = .ok a) fun _ => ends := by
  refine stops_map.2 (h.imp ?_ fun _ hends => hends)
  rintro _ rfl
  rfl

/-- What follows an operation that makes a store call does not count, if that one times out. -/
theorem run_bind {f : α → Operation ε β}
    (h : op.run.Stops limit quiet (· = .error e) fun _ => False) :
    (op >>= f).run.Stops limit quiet (· = .error e) fun _ => ends := by
  refine stops_run_bind.2 (h.imp ?_ fun _ => False.elim)
  rintro _ rfl
  rfl

/-- An operation without a store call comes before another one. -/
theorem run_storeless_bind {f : α → Operation ε β} {late : Except ε β → Prop}
    (h : op.run.Storeless limit quiet)
    (hf : ∀ a, (f a).run.Stops limit quiet late fun _ => True) :
    (op >>= f).run.Stops limit quiet late fun _ => True := by
  refine stops_run_bind.2 (h.imp (fun _ => False.elim) fun r _ => ?_)
  cases r with
  | ok a => exact hf a
  | error e => trivial

end Stops

namespace Storeless

variable {op : Operation ε α}

theorem run_pure (a : α) : (Pure.pure a : Operation ε α).run.Storeless limit quiet :=
  trivial

theorem run_throw (e : ε) : (throw e : Operation ε α).run.Storeless limit quiet :=
  trivial

/-- A quiet call to the platform. -/
theorem run_host {c : HostCall} (hc : quiet c) :
    (Operation.host c).run.Storeless limit quiet :=
  ⟨hc, fun _ => trivial⟩

/-- A request to a key server. -/
theorem run_fetch (target : Http.Target) :
    (ExceptT.lift (perform (.fetch target)) : Operation ε _).run.Storeless limit quiet :=
  fun _ => trivial

theorem run_wrap {f : ε → ε'} (h : op.run.Storeless limit quiet) :
    (Operation.wrap f op).run.Storeless limit quiet :=
  stops_map.2 h

theorem run_bind {f : α → Operation ε β} (h : op.run.Storeless limit quiet)
    (hf : ∀ a, (f a).run.Storeless limit quiet) : (op >>= f).run.Storeless limit quiet :=
  Stops.run_storeless_bind h hf

/-- What a program without a store call comes to is never late. -/
theorem stops (h : p.Storeless limit quiet) (late : α → Prop) :
    p.Stops limit quiet late fun _ => True :=
  h.imp (fun _ => False.elim) fun _ _ => trivial

/-- A program without a store call makes none under another limit. -/
theorem limited (h : p.Storeless limit quiet) : p.Limited limit := by
  induction p with
  | done a => exact .pure a
  | call c next ih =>
    cases c with
    | store other c =>
      -- if its call timed out, the program would have to come to a value that is late
      obtain ⟨a, hlate, -⟩ := h.2.runFrom_closing ⟨0⟩ (.new .memory)
      exact hlate.elim
    | host c => exact .call rfl fun answer => ih answer (h.2 answer)
    | fetch target => exact .call rfl fun answer => ih answer (h answer)
    | acquire lock => exact .call rfl fun _ => ih () h
    | release lock => exact .call rfl fun _ => ih () h

end Storeless

/-! ## Runs -/

theorem Stops.keeps (h : p.Stops limit quiet late post) :
    p.Keeps (.delayed limit quiet) fun _ => True := by
  induction p with
  | done a => trivial
  | call c next ih =>
    cases c with
    | store other c =>
      refine ⟨h.1, ?_⟩
      rintro answer rfl
      refine (h.2.imp fun _ _ => trivial).weaken ?_ fun _ _ _ => trivial
      rintro _ ⟨lock, rfl⟩
      trivial
    | host c => exact ⟨h.1, fun answer _ => ih answer (h.2 answer)⟩
    | fetch target => exact ⟨trivial, fun answer _ => ih answer (h answer)⟩
    | acquire lock => exact ⟨trivial, fun _ _ => ih () h⟩
    | release lock => exact ⟨trivial, fun _ _ => ih () h⟩

/-- **What is left.**  In a run whose store is too slow, nothing is read or written, and the run keeps
every invariant of the platform that the quiet calls keep. -/
theorem Stops.heldUp_run {invariant : Host → Prop} (h : p.Stops limit quiet late post)
    (hquiet : ∀ c, quiet c → Host.Preserves invariant c)
    (hlatency : w.store.latency.Exceeds limit) (hw : invariant w.host) :
    World.HeldUp limit invariant w.store (p.run none w).2 := by
  have hupheld : (Contract.delayed limit quiet).Upheld (World.HeldUp limit invariant w.store) :=
    Contract.upheld_delayed hquiet w.store
  have hlast : World.HeldUp limit invariant w.store (p.runFrom none ⟨0⟩ w).2 :=
    (h.keeps.trusts_runFrom hupheld ⟨hlatency, rfl, rfl, rfl, hw⟩).2
  rw [Program.run]
  generalize p.runFrom none ⟨0⟩ w = ending at hlast
  obtain ⟨outcome, w'⟩ := ending
  cases outcome with
  | finished a => exact hlast
  | _ => exact hupheld.held w.held hlast

/-- Where a program makes another call than to the store, it goes on. -/
theorem Stops.next {c : Call} {next : c.Answer → Program α}
    (h : (Program.call c next).Stops limit quiet late post) (hc : c.isStore = false)
    (answer : c.Answer) : (next answer).Stops limit quiet late post := by
  cases c with
  | store other c => cases hc
  | host c => exact h.2 answer
  | fetch target => exact h answer
  | acquire lock => exact h
  | release lock => exact h

/-- A run goes as with a store that answers in time until it makes its first store call, and with that
one it ends. -/
theorem Stops.runFrom_withLatency (h : p.Stops limit quiet late post)
    (hlatency : latency.Exceeds limit) (waited waited' : Duration) (w : World) :
    ((∀ e ∈ p.transcriptFrom none waited' w, e.call.isStore = false) ∧
        p.Alike w latency waited waited') ∨
      (∃ e ∈ p.transcriptFrom none waited' w, e.call.isStore = true) ∧
        ∃ a, late a ∧ (p.runFrom none waited (w.withLatency latency)).1 = .finished a := by
  induction p generalizing waited waited' w with
  | done a => exact .inl ⟨by simp [transcriptFrom], rfl, rfl⟩
  | call c next ih =>
    cases hc : c.isStore with
    | true =>
      cases c with
      | store other c =>
        obtain ⟨⟨rfl, hoffers⟩, hclosing⟩ := h
        refine .inr ⟨⟨_, List.mem_cons_self, rfl⟩, ?_⟩
        have hcall := Store.call_of_exceeds (s := (w.withLatency latency).store) hlatency
          (hoffers _)
        rw [runFrom_store, hcall]
        exact hclosing.runFrom_closing _ _
      | _ => cases hc
    | false =>
      by_cases hanswered : ∃ answer w', w.react c = .answered answer w'
      · obtain ⟨answer, w', hreact⟩ := hanswered
        have htranscript : (Program.call c next).transcriptFrom none waited' w =
            ⟨c, some answer⟩ :: (next answer).transcriptFrom none (waited' + w.waitFor c) w' := by
          rw [transcriptFrom_none_call, hreact]
        have hrun : (Program.call c next).runFrom none waited (w.withLatency latency) =
            (next answer).runFrom none (waited + (w.withLatency latency).waitFor c)
              (w'.withLatency latency) := by
          rw [runFrom_none_call, World.react_withLatency hc, hreact]
          rfl
        rw [htranscript, hrun, List.forall_mem_cons, List.exists_mem_cons_iff]
        rcases ih answer (h.next hc answer) (waited + (w.withLatency latency).waitFor c)
          (waited' + w.waitFor c) w' with ⟨hnone, halike⟩ | ⟨hsome, hlate⟩
        · refine .inl ⟨⟨hc, hnone⟩, .call (World.react_withLatency hc) fun other w'' hother => ?_⟩
          cases hreact.symm.trans hother
          exact halike
        · exact .inr ⟨.inr hsome, hlate⟩
      · refine .inl ⟨?_, .call (World.react_withLatency hc) fun answer w' hreact =>
          absurd ⟨answer, w', hreact⟩ hanswered⟩
        rw [transcriptFrom_of_unanswered hanswered]
        exact List.forall_mem_singleton.2 hc

/-- **Too slow.**  If the store exceeds the limit, a run that makes no store call goes as with a store
that answers at once, and every other one comes to a value that is late. -/
theorem Stops.run_withLatency (h : p.Stops limit quiet late post)
    (hlatency : latency.Exceeds limit) (w : World) :
    ((∀ e ∈ p.transcript none (w.withLatency ⟨0⟩), e.call.isStore = false) ∧
        p.Unaffected w latency) ∨
      (∃ e ∈ p.transcript none (w.withLatency ⟨0⟩), e.call.isStore = true) ∧
        ∃ a, late a ∧ (p.run none (w.withLatency latency)).1 = .finished a := by
  rw [run_fst]
  exact (h.runFrom_withLatency hlatency ⟨0⟩ ⟨0⟩ (w.withLatency ⟨0⟩)).imp_left fun hrun =>
    ⟨hrun.1, hrun.2.unaffected⟩

end Program

end SealedChannel
