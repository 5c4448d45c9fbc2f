import SealedChannel.Proofs.Chat.Call
import SealedChannel.Proofs.Program.Ending

/-!
# Operations that only look

An operation that makes no other calls than reads and questions to the platform leaves every stored
value as it is, and of the platform at most the conditions change meanwhile.  What it finds is then
told by the platform and the values at the moment at which it begins, and parts of such an operation
may be looked at one by one.

## What is here

* `Moment.Shows` — the platform and the values at a moment.
* `Operation.Finds` — an operation that only looks, and what it finds if it succeeds.
* `Operation.Finds.bind`, `Operation.finds_get`, `Operation.finds_host` and the other rules — one
  for each way to put such an operation together.
-/

set_option autoImplicit false
namespace SealedChannel

/-- The platform, under whatever conditions, and the stored values at a moment. -/
structure Moment.Shows (t : Moment) (climate : Climate) (host : Host)
    (values : String → Option Bytes) : Prop where
  host : host.Turns climate t.world.host
  values : t.world.store.get? = values

/-- It does not matter that the world turns. -/
theorem Moment.Shows.turned {t : Moment} {climate : Climate} {host : Host}
    {values : String → Option Bytes} {w : World} (h : t.Shows climate host values)
    (hw : t.world.Turns climate w) : (t.turned w).Shows climate host values :=
  ⟨h.host.trans hw.host, (funext hw.get?).trans h.values⟩

namespace Operation

open Program

variable {ε ε' α β : Type} {climate : Climate} {host : Host} {values : String → Option Bytes}
  {found : α → Prop}

/-- An operation leaves the platform and the values as they are, and what it comes to if it
succeeds is what may be found there. -/
def Finds (climate : Climate) (host : Host) (values : String → Option Bytes) (op : Operation ε α)
    (found : α → Prop) : Prop :=
  ∀ limit (t : Moment), t.Shows climate host values → op.run.Ensures climate limit
    (fun result t' => t'.Shows climate host values ∧ ∀ a, result = .ok a → found a)
    (fun _ => True) t

/-- What is found in a stronger sense is found in a weaker one. -/
theorem Finds.imp {op : Operation ε α} {found' : α → Prop} (h : op.Finds climate host values found)
    (himp : ∀ a, found a → found' a) : op.Finds climate host values found' :=
  fun limit t ht => (h limit t ht).imp (fun _ _ hresult =>
    ⟨hresult.1, fun a ha => himp a (hresult.2 a ha)⟩) fun _ => id

theorem finds_pure {a : α} (h : found a) :
    (pure a : Operation ε α).Finds climate host values found := by
  intro limit t ht
  refine ⟨ht, ?_⟩
  rintro b ⟨⟩
  exact h

theorem Finds.bind {op : Operation ε α} {f : α → Operation ε β} {found' : β → Prop}
    (h : op.Finds climate host values found)
    (hf : ∀ a, found a → (f a).Finds climate host values found') :
    (op >>= f).Finds climate host values found' := by
  intro limit t ht
  refine ensures_run_bind.2 ((h limit t ht).imp (fun result t' hresult => ?_) fun _ => id)
  obtain ⟨ht', hfound⟩ := hresult
  cases result with
  | error e => exact ⟨ht', by rintro b ⟨⟩⟩
  | ok a => exact hf a (hfound a rfl) limit t' ht'

theorem Finds.wrap {op : Operation ε α} (h : op.Finds climate host values found) (f : ε → ε') :
    (Operation.wrap f op).Finds climate host values found := by
  intro limit t ht
  refine ensures_run_wrap.2 ((h limit t ht).imp (fun result t' hresult => ?_) fun _ => id)
  obtain ⟨ht', hfound⟩ := hresult
  cases result with
  | error e => exact ⟨ht', by rintro b ⟨⟩⟩
  | ok a => exact ⟨ht', by rintro b ⟨⟩; exact hfound a rfl⟩

/-- A read finds the value under its key. -/
theorem finds_get (l : Duration) (key : String) :
    (Operation.store l (.get key)).Finds climate host values fun raw => raw = values key := by
  intro limit t ht
  refine .run_store (fun _ _ _ => trivial) fun w answer store hw _ hcall => ?_
  have hturned := ht.turned hw
  have hstore : store.get? = w.store.get? := by
    have := w.store.get?_call_get (some l) key
    rwa [hcall] at this
  refine ⟨⟨hturned.host, hstore.trans hturned.values⟩, ?_⟩
  rintro raw rfl
  rw [← hturned.values]
  exact Store.call_get (congrArg Prod.fst hcall)

/-- A question to the platform finds what the platform answers. -/
theorem finds_host {c : HostCall} (hc : c.asks = true) :
    (Operation.host c).Finds climate host values fun a =>
      ∃ h h', host.Turns climate h ∧ h.call c = some (.ok a, h') := by
  intro limit t ht
  refine .run_host (fun _ _ _ => trivial) fun w answer host' hw _ hcall => ?_
  have hturned := ht.turned hw
  have hhost : host.Turns climate w.host := hturned.host
  rw [← Host.eq_of_asks hc hcall] at hhost
  refine ⟨⟨hhost, hturned.values⟩, ?_⟩
  rintro a rfl
  exact ⟨w.host, host', hturned.host, hcall⟩

end Operation

end SealedChannel
