import SealedChannel.Proofs.Program.Contract
import SealedChannel.Proofs.Program.Exchange

/-!
# Footprints

The reach of a program bounds everything that it may do with the store and that it may publish,
whatever its calls answer.  A program that cannot read a key cannot tell what is there, and one that
cannot publish an event need not be looked at when such events are counted.  The footprint is the
part of the reach that is written.  A program that is put together from parts has the reach of its
parts.

## What is here

* `Reach` — keys that may be read, writes that may be made, and events that may be published.
* `Reach.Covers`, `Program.Within` — a call, and all calls of a program, stay within a reach.
* `Within.bind`, `Within.run_bind` and the other rules — one for each way to put a program together.
* `Contract.writesOnly`, `Program.Writes` — programs that make no other writes.
* `Within.writes` — the footprint of a program is the written part of its reach.
-/

set_option autoImplicit false
namespace SealedChannel

/-- What a program may do: keys that it may read, writes that it may make, each a key with its value
then, and events that it may publish. -/
structure Reach where
  reads : String → Prop
  writes : String → Option Bytes → Prop
  publishes : Event → Prop

/-- The key that a call reads. -/
def Call.source? : Call → Option String
  | .store _ c => c.source?
  | _ => none

/-- The event that a call publishes. -/
def Call.event? : Call → Option Event
  | .host (.publishEvent event) => some event
  | _ => none

/-- A call stays within a reach. -/
structure Reach.Covers (r : Reach) (c : Call) : Prop where
  reads : ∀ key, c.source? = some key → r.reads key
  writes : ∀ key value, c.target? = some (key, value) → r.writes key value
  publishes : ∀ event, c.event? = some event → r.publishes event

/-- A call that neither reads nor writes a key nor publishes an event is within every reach. -/
theorem Reach.covers_of_none {r : Reach} {c : Call} (hsource : c.source? = none)
    (htarget : c.target? = none) (hevent : c.event? = none) : r.Covers c := by
  constructor <;> simp [hsource, htarget, hevent]

/-- Only calls within a reach may be made; nothing is relied on. -/
def Contract.within (r : Reach) : Contract where
  allows := r.Covers
  answers _ _ := True

/-- Only the given writes may be made, where a removal writes `none`; nothing is relied on. -/
def Contract.writesOnly (writes : String → Option Bytes → Prop) : Contract where
  allows c := ∀ key value, c.target? = some (key, value) → writes key value
  answers _ _ := True

namespace Program

/-- All calls of a program stay within a reach. -/
def Within {α : Type} (r : Reach) (p : Program α) : Prop :=
  p.Keeps (.within r) fun _ => True

/-- A program makes no other writes than the given ones. -/
def Writes {α : Type} (writes : String → Option Bytes → Prop) (p : Program α) : Prop :=
  p.Keeps (.writesOnly writes) fun _ => True

namespace Writes

variable {α : Type} {writes : String → Option Bytes → Prop}

theorem keeps {p : Program α} (h : p.Writes writes) :
    p.Keeps (.writesOnly writes) fun _ => True :=
  h

theorem mono {writes' : String → Option Bytes → Prop} {p : Program α} (h : p.Writes writes)
    (hwrites : ∀ key value, writes key value → writes' key value) : p.Writes writes' :=
  h.weaken (fun _ hc key value htarget => hwrites key value (hc key value htarget)) fun _ _ _ =>
    trivial

theorem pure (a : α) : (Pure.pure a : Program α).Writes writes :=
  trivial

end Writes

namespace Within

variable {α β ε ε' : Type} {r : Reach}

theorem keeps {p : Program α} (h : p.Within r) : p.Keeps (.within r) fun _ => True :=
  h

/-- The footprint of a program is the written part of its reach. -/
theorem writes {p : Program α} (h : p.Within r) : p.Writes r.writes :=
  h.weaken (fun _ hc => hc.writes) fun _ _ _ => trivial

/-! ## Programs -/

theorem pure (a : α) : (Pure.pure a : Program α).Within r :=
  trivial

theorem bind {p : Program α} {f : α → Program β} (hp : p.Within r)
    (hf : ∀ a, (f a).Within r) : (p >>= f).Within r :=
  keeps_bind.2 (hp.imp fun a _ => hf a)

theorem map {p : Program α} {f : α → β} (hp : p.Within r) : (f <$> p).Within r :=
  keeps_map.2 hp

theorem call {c : Call} {next : c.Answer → Program α} (hc : r.Covers c)
    (hnext : ∀ answer, (next answer).Within r) : (Program.call c next).Within r :=
  ⟨hc, fun answer _ => hnext answer⟩

theorem locked {lock : Nat} {p : Program α} (hp : p.Within r) :
    (Program.locked lock p).Within r := by
  have hacquire : r.Covers (.acquire lock) := Reach.covers_of_none rfl rfl rfl
  have hrelease : r.Covers (.release lock) := Reach.covers_of_none rfl rfl rfl
  rw [locked_eq]
  exact call hacquire fun _ => bind hp fun a => call hrelease fun _ => pure a

/-! ## Operations -/

theorem run_pure (a : α) : (Pure.pure a : Operation ε α).run.Within r :=
  trivial

theorem run_throw (e : ε) : (throw e : Operation ε α).run.Within r :=
  trivial

theorem run_bind {op : Operation ε α} {f : α → Operation ε β} (hop : op.run.Within r)
    (hf : ∀ a, (f a).run.Within r) : (op >>= f).run.Within r :=
  Keeps.run_bind hop hf

theorem run_wrap {f : ε → ε'} {op : Operation ε α} (hop : op.run.Within r) :
    (Operation.wrap f op).run.Within r :=
  keeps_run_wrap.2 hop

theorem run_attempt {op : Operation ε α} (hop : op.run.Within r) :
    (Operation.attempt op : Operation ε' (Except ε α)).run.Within r :=
  keeps_run_attempt.2 hop

theorem run_lift {p : Program α} (hp : p.Within r) :
    (ExceptT.lift p : Operation ε α).run.Within r :=
  map hp

/-- A call to the platform that publishes nothing. -/
theorem run_host {c : HostCall} (hc : (Call.host c).event? = none) :
    (Operation.host c).run.Within r :=
  call (Reach.covers_of_none rfl rfl hc) fun answer => pure answer

/-- An event of the reach. -/
theorem run_publish {event : Event} (h : r.publishes event) :
    (Operation.host (.publishEvent event)).run.Within r := by
  refine call ⟨fun key hkey => ?_, fun key value htarget => ?_, fun other hother => ?_⟩
    fun answer => pure answer
  · cases hkey
  · cases htarget
  · exact Option.some.inj hother ▸ h

/-- A read of a key of the reach. -/
theorem run_get {limit : Duration} {key : String} (h : r.reads key) :
    (Operation.store limit (.get key)).run.Within r := by
  refine call ⟨fun other hother => ?_, fun other value htarget => ?_, fun event hevent => ?_⟩
    fun answer => pure answer
  · exact Option.some.inj hother ▸ h
  · cases htarget
  · cases hevent

/-- A write of the reach, by a call that does not read. -/
theorem run_write {limit : Duration} {c : StoreCall} {key : String} {value : Option Bytes}
    (hsource : (Call.store limit c).source? = none) (hc : c.target? = some (key, value))
    (h : r.writes key value) : (Operation.store limit c).run.Within r := by
  refine call ⟨fun other hother => ?_, fun other written htarget => ?_, fun event hevent => ?_⟩
    fun answer => pure answer
  · rw [hsource] at hother
    cases hother
  · obtain ⟨rfl, rfl⟩ := Prod.mk.inj (Option.some.inj (hc.symm.trans htarget))
    exact h
  · cases hevent

/-- A compare-and-set of the reach. -/
theorem run_compareAndSet {limit : Duration} {key : String} {expected : Option Bytes}
    {value : Bytes} (hread : r.reads key) (hwrite : r.writes key (some value)) :
    (Operation.store limit (.compareAndSet key expected value)).run.Within r := by
  refine call ⟨fun other hother => ?_, fun other written htarget => ?_, fun event hevent => ?_⟩
    fun answer => pure answer
  · exact Option.some.inj hother ▸ hread
  · obtain ⟨rfl, rfl⟩ := Prod.mk.inj (Option.some.inj htarget)
    exact hwrite
  · cases hevent

end Within

-- a reach is computed by the rules alone, never by running the program
attribute [irreducible] Within Writes

end Program

end SealedChannel
