import Mathlib.Data.List.Basic
import SealedChannel.Proofs.Storage.Call
import SealedChannel.World

/-!
# Exchanges

An exchange is a call together with its answer.  The store can be followed through the exchanges
alone: a key holds what the last exchange with an effect on it has put there.

## What is here

* `Exchange`, `Exchange.effectOn?` — a call with its answer, and what it has put under a key.
* `Exchange.write?` — the key that an exchange has written.
* `Exchange.succeeded` — whether a call was answered, and not with an error.
* `Exchange.about`, `Exchange.lastEffect?` — the calls about a key, and what a list of exchanges
  leaves under it.
* `World.store_react`, `World.host_react` — what an answered call leaves alone.
* `World.get?_react` — what an answered call does to a spared key.
-/

set_option autoImplicit false
namespace SealedChannel

/-- What a call writes if it takes effect: a key, and its value then, `none` for a removal. -/
def Call.target? : Call → Option (String × Option Bytes)
  | .store _ c => c.target?
  | _ => none

/-- Whether a call is a store call about a key. -/
def Call.isOn (key : String) : Call → Bool
  | .store _ c => c.key = key
  | _ => false

theorem Call.isOn_of_target? {c : Call} {key : String} {value : Option Bytes}
    (h : c.target? = some (key, value)) : c.isOn key = true := by
  cases c with
  | store limit c => exact decide_eq_true (StoreCall.key_of_target? h)
  | _ => cases h

/-- A call that was made. -/
structure Exchange where
  call : Call
  /-- The answer; `none` if the program was cut off while it waited. -/
  answer? : Option call.Answer

namespace Exchange

/-- What an exchange has put under a key; `none` if it left the key alone. -/
def effectOn? (key : String) : Exchange → Option (Option Bytes)
  | ⟨.store _ c, some answer⟩ => c.effectOn? key answer
  | _ => none

/-- A call that was not answered had no effect. -/
@[simp]
theorem effectOn?_none (key : String) (c : Call) : effectOn? key ⟨c, none⟩ = none := by
  cases c <;> rfl

/-- An effect is the target of the call. -/
theorem target?_of_effectOn? {key : String} {e : Exchange} {value : Option Bytes}
    (h : e.effectOn? key = some value) : e.call.target? = some (key, value) := by
  obtain ⟨c, answer⟩ := e
  cases c with
  | store limit c =>
    cases answer with
    | none => cases h
    | some answer => exact StoreCall.target?_of_effectOn? h
  | _ => cases h

/-- The key that an exchange has written, with its value then; `none` if it wrote nothing. -/
def write? : Exchange → Option (String × Option Bytes)
  | ⟨.store _ c, some answer⟩ => if c.tookEffect answer then c.target? else none
  | _ => none

/-- An exchange has an effect on the key that it has written, and on no other. -/
theorem write?_eq_some_iff {key : String} {e : Exchange} {value : Option Bytes} :
    e.write? = some (key, value) ↔ e.effectOn? key = some value := by
  obtain ⟨c, answer⟩ := e
  cases c with
  | store limit c =>
    cases answer with
    | none => simp [write?, effectOn?]
    | some answer =>
      rw [write?, effectOn?, StoreCall.effectOn?]
      cases htarget : c.target? with
      | none => simp
      | some target => cases heffect : c.tookEffect answer <;> simp [Prod.ext_iff]
  | _ => simp [write?, effectOn?]

/-- Whether a call was answered, and not with an error. -/
def succeeded : Exchange → Bool
  | ⟨.store _ _, some answer⟩ => answer.isOk
  | ⟨.host _, some answer⟩ => answer.isOk
  | ⟨.fetch _, some answer⟩ => answer.isOk
  | ⟨_, answer?⟩ => answer?.isSome

theorem succeeded_none (c : Call) : succeeded ⟨c, none⟩ = false := by
  cases c <;> rfl

/-- A write that is not a compare-and-set has its effect if it succeeds. -/
theorem effectOn?_of_succeeded {e : Exchange} {limit : Duration} {c : StoreCall} {key : String}
    {value : Option Bytes} (hcall : e.call = .store limit c)
    (hplain : ∀ answer, c.tookEffect answer = answer.isOk)
    (htarget : c.target? = some (key, value)) (h : e.succeeded = true) :
    e.effectOn? key = some value := by
  obtain ⟨call, answer?⟩ := e
  subst hcall
  cases answer? with
  | none => rw [succeeded_none] at h; cases h
  | some answer =>
    rw [effectOn?, StoreCall.effectOn?, htarget]
    exact if_pos ⟨rfl, (hplain answer).trans h⟩

/-- What a list of exchanges leaves under a key; `none` if none of them touches it. -/
def lastEffect? (key : String) (exchanges : List Exchange) : Option (Option Bytes) :=
  (exchanges.filterMap (effectOn? key)).getLast?

/-- Later exchanges win. -/
theorem lastEffect?_append (key : String) (exchanges later : List Exchange) :
    lastEffect? key (exchanges ++ later) =
      (lastEffect? key later).or (lastEffect? key exchanges) := by
  rw [lastEffect?, List.filterMap_append, List.getLast?_append]
  rfl

@[simp]
theorem lastEffect?_singleton (key : String) (e : Exchange) :
    lastEffect? key [e] = e.effectOn? key := by
  rw [lastEffect?, List.filterMap_cons]
  cases e.effectOn? key <;> rfl

theorem lastEffect?_concat (key : String) (exchanges : List Exchange) (e : Exchange) :
    lastEffect? key (exchanges ++ [e]) = (e.effectOn? key).or (lastEffect? key exchanges) := by
  rw [lastEffect?_append, lastEffect?_singleton]

theorem lastEffect?_cons (key : String) (e : Exchange) (exchanges : List Exchange) :
    lastEffect? key (e :: exchanges) = (lastEffect? key exchanges).or (e.effectOn? key) := by
  rw [← List.singleton_append, lastEffect?_append, lastEffect?_singleton]

/-- Exchanges that wrote nothing leave nothing under any key. -/
theorem lastEffect?_of_writes {exchanges : List Exchange} (h : exchanges.filterMap write? = [])
    (key : String) : lastEffect? key exchanges = none := by
  rw [lastEffect?, List.getLast?_eq_none_iff, List.filterMap_eq_nil_iff]
  intro e he
  rw [List.filterMap_eq_nil_iff] at h
  rw [Option.eq_none_iff_forall_ne_some]
  intro value heffect
  rw [← write?_eq_some_iff, h e he] at heffect
  cases heffect

/-- What is left under a key was put there by one of the exchanges. -/
theorem exists_of_lastEffect? {key : String} {exchanges : List Exchange} {value : Option Bytes}
    (h : lastEffect? key exchanges = some value) :
    ∃ e ∈ exchanges, e.effectOn? key = some value := by
  obtain ⟨e, he, hvalue⟩ := List.mem_filterMap.1 (List.mem_of_getLast? h)
  exact ⟨e, he, hvalue⟩

/-- The calls about a key. -/
def about (key : String) (exchanges : List Exchange) : List Exchange :=
  exchanges.filter fun e => e.call.isOn key

theorem about_append (key : String) (exchanges later : List Exchange) :
    about key (exchanges ++ later) = about key exchanges ++ about key later :=
  List.filter_append ..

theorem about_singleton (key : String) (e : Exchange) :
    about key [e] = if e.call.isOn key then [e] else [] := by
  rw [about, List.filter_cons, List.filter_nil]

theorem about_flatMap {ι : Type} (key : String) (order : List ι) (f : ι → List Exchange) :
    about key (order.flatMap f) = order.flatMap fun i => about key (f i) :=
  List.filter_flatMap ..

/-- The calls about a key alone tell what is left under it. -/
theorem lastEffect?_about (key : String) (exchanges : List Exchange) :
    lastEffect? key (about key exchanges) = lastEffect? key exchanges := by
  rw [lastEffect?, lastEffect?, about, List.filterMap_filter]
  refine congrArg _ (List.filterMap_congr fun e _ => ?_)
  by_cases hon : e.call.isOn key
  · rw [if_pos hon]
  · rw [if_neg hon, eq_comm, Option.eq_none_iff_forall_ne_some]
    intro value heffect
    exact hon (Call.isOn_of_target? (target?_of_effectOn? heffect))

end Exchange

/-! ## Answered calls -/

namespace World

variable {w w' : World} {c : Call} {answer : c.Answer} {key : String}

/-- A call that has only begun has changed no value, and spares what was spared. -/
theorem get?_begin (w : World) (c : Call) (key : String) :
    (w.begin c).store.get? key = w.store.get? key := by
  cases c <;> simp [World.begin]

theorem spares_begin (h : w.store.Spares key) (c : Call) : (w.begin c).store.Spares key := by
  cases c with
  | store limit c => exact h.begin c
  | _ => exact h

/-- An answered call to the store is a call under its limit. -/
theorem react_store {limit : Duration} {c : StoreCall} {answer : Except StoreError c.Answer}
    (h : w.react (.store limit c) = .answered answer w') :
    (w.store.call (some limit) c).1 = answer ∧ w'.store = (w.store.call (some limit) c).2 := by
  cases h
  exact ⟨rfl, rfl⟩

/-- An answered call to anything but the store leaves the store as it was. -/
theorem store_react (hc : ∀ limit call, c ≠ .store limit call)
    (h : w.react c = .answered answer w') : w'.store = w.store := by
  cases c with
  | store limit call => exact absurd rfl (hc limit call)
  | host call =>
    rw [react] at h
    split at h
    · cases h
    · cases h; rfl
  | acquire lock =>
    rw [react] at h
    split at h
    · cases h
    · cases h; rfl
  | _ => cases h; rfl

/-- **Answered calls and the store.**  An answered call has the effect on a spared key that its
answer tells. -/
theorem get?_react (h : w.react c = .answered answer w') (hs : w.store.Spares key) :
    w'.store.get? key = ((⟨c, some answer⟩ : Exchange).effectOn? key).getD (w.store.get? key) := by
  cases c with
  | store limit c =>
    cases h
    exact Store.get?_call hs (some limit) c
  | _ =>
    rw [store_react (by rintro _ _ ⟨⟩) h]
    rfl

theorem spares_react (h : w.react c = .answered answer w') (hs : w.store.Spares key) :
    w'.store.Spares key := by
  cases c with
  | store limit c =>
    cases h
    exact hs.call (some limit) c
  | _ =>
    rw [store_react (by rintro _ _ ⟨⟩) h]
    exact hs

/-- An answered call to anything but the platform leaves the platform as it was. -/
theorem host_react (hc : ∀ call, c ≠ .host call)
    (h : w.react c = .answered answer w') : w'.host = w.host := by
  cases c with
  | host call => exact absurd rfl (hc call)
  | acquire lock =>
    rw [react] at h
    split at h
    · cases h
    · cases h; rfl
  | _ => cases h; rfl

end World

end SealedChannel
