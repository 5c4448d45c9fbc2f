import SealedChannel.Proofs.Program.Delivery

/-!
# What a run does between two moments

A run is done with what it has written and published.  Between two moments these are two lists, and
those of a longer stretch are the ones of its parts put together.

## What is here

* `Exchange.lastEffect?_of_write` — exchanges that wrote once leave what they wrote.
* `Moment.writes`, `Moment.Does` — the writes so far, and what is done between two moments.
* `Moment.Does.trans`, `Moment.does_answered`, `Moment.does_cutIn` — how stretches are put together,
  and what one call does.
* `Program.Within.ensures_does` — a program that may neither write nor publish does nothing.
-/

set_option autoImplicit false
namespace SealedChannel

namespace Exchange

/-- The effect of an exchange on a key is what it has written there. -/
theorem effectOn?_eq (key : String) (e : Exchange) : e.effectOn? key =
    e.write?.bind fun written => if written.1 = key then some written.2 else none := by
  cases hwrite : e.write? with
  | none =>
    refine Option.eq_none_iff_forall_ne_some.2 fun value heffect => ?_
    rw [write?_eq_some_iff.2 heffect] at hwrite
    cases hwrite
  | some written =>
    obtain ⟨name, value⟩ := written
    by_cases hname : name = key
    · subst hname
      simpa using write?_eq_some_iff.1 hwrite
    · rw [Option.bind_some, if_neg hname]
      refine Option.eq_none_iff_forall_ne_some.2 fun other heffect => hname ?_
      rw [write?_eq_some_iff.2 heffect] at hwrite
      cases hwrite
      rfl

/-- Exchanges that wrote once leave what they wrote. -/
theorem lastEffect?_of_write {key : String} {value : Option Bytes} {exchanges : List Exchange}
    (h : exchanges.filterMap write? = [(key, value)]) :
    lastEffect? key exchanges = some value := by
  have heffects : exchanges.filterMap (effectOn? key) = [value] := by
    rw [funext (effectOn?_eq key), ← List.filterMap_filterMap, h]
    simp
  rw [lastEffect?, heffects]
  rfl

end Exchange

/-! ## Between two moments -/

namespace Moment

/-- The writes of a run so far. -/
def writes (t : Moment) : List (String × Option Bytes) :=
  t.made.filterMap Exchange.write?

/-- Between two moments a run has made these writes and published these events. -/
structure Does (t : Moment) (writes : List (String × Option Bytes)) (events : List Event)
    (t' : Moment) : Prop where
  writes : t'.writes = t.writes ++ writes
  events : t'.events = t.events ++ events

variable {t t' t'' : Moment} {writes writes' : List (String × Option Bytes)}
  {events events' : List Event}

theorem Does.trans (h : t.Does writes events t') (h' : t'.Does writes' events' t'') :
    t.Does (writes ++ writes') (events ++ events') t'' :=
  ⟨by rw [h'.writes, h.writes, List.append_assoc], by rw [h'.events, h.events, List.append_assoc]⟩

/-- Nothing is done when the world turns. -/
theorem does_turned (t : Moment) (w : World) : t.Does [] [] (t.turned w) :=
  ⟨(List.append_nil _).symm, (List.append_nil _).symm⟩

/-- What an answered call does. -/
theorem does_answered (t : Moment) (c : Call) (answer : c.Answer) (w : World) :
    t.Does (Exchange.write? ⟨c, some answer⟩).toList (Exchange.event? ⟨c, some answer⟩).toList
      (t.answered c answer w) := by
  refine ⟨?_, events_answered t c answer w⟩
  rw [Moment.writes, answered, List.filterMap_append, List.filterMap_cons]
  cases Exchange.write? ⟨c, some answer⟩ <;> rfl

/-- A call that neither writes nor publishes. -/
theorem does_nothing {c : Call} {answer : c.Answer} {w : World}
    (hwrite : Exchange.write? ⟨c, some answer⟩ = none)
    (hevent : Exchange.event? ⟨c, some answer⟩ = none) :
    t.Does [] [] (t.answered c answer w) := by
  have hdoes := t.does_answered c answer w
  rwa [hwrite, hevent] at hdoes

/-- A call in which a run is cut off does nothing. -/
theorem does_cutIn (t : Moment) (c : Call) (w : World) : t.Does [] [] (t.cutIn c w) := by
  have hwrite : Exchange.write? ⟨c, none⟩ = none := by cases c <;> rfl
  constructor
  · simp [Moment.writes, cutIn, hwrite]
  · simp [Moment.events, cutIn, Exchange.event?_none]

/-- Calls within a reach without writes and events do nothing. -/
theorem does_of_allowsBetween {r : Reach} (hwrites : ∀ key value, ¬ r.writes key value)
    (hevents : ∀ event, ¬ r.publishes event) (h : (Contract.within r).AllowsBetween t t') :
    t.Does [] [] t' := by
  refine ⟨?_, by rw [events_of_allowsBetween hevents h, List.append_nil]⟩
  obtain ⟨later, hmade, hallows⟩ := h
  have hnone : later.filterMap Exchange.write? = [] := by
    refine List.filterMap_eq_nil_iff.2 fun e he => Option.eq_none_iff_forall_ne_some.2 ?_
    rintro ⟨key, value⟩ hwrite
    have heffect := Exchange.write?_eq_some_iff.1 hwrite
    have hallowed := (hallows e he).writes key value (Exchange.target?_of_effectOn? heffect)
    exact hwrites key value hallowed
  rw [Moment.writes, hmade, List.filterMap_append, hnone]
  rfl

end Moment

namespace Program

variable {α : Type} {climate : Climate} {limit : Option Duration} {t : Moment}

/-- A run that is in time at some moment is in time when it comes to its end. -/
theorem ensures_inTime (p : Program α) (hin : isOver limit t.waited = false) :
    p.Ensures climate limit (fun _ t' => isOver limit t'.waited = false) (fun _ => True) t := by
  induction p generalizing t with
  | done a => exact hin
  | call c next ih =>
    exact .call (fun _ _ _ => trivial) (fun _ _ _ => trivial) fun w answer w' _ hin' _ =>
      ih answer hin'

theorem Keeps.ensures_lax {kept : α → Prop} {p : Program α} (h : p.Keeps .lax kept)
    (climate : Climate) (limit : Option Duration) (t : Moment) :
    p.Ensures climate limit (fun a _ => kept a) (fun _ => True) t := by
  have hlax : Contract.lax.Upheld fun _ => True :=
    ⟨fun _ _ => trivial, fun _ _ => trivial, fun _ _ _ => ⟨trivial, trivial⟩⟩
  exact (h.ensures hlax (fun _ _ => trivial) trivial).imp (fun _ _ h => h.1) fun _ _ => trivial

/-- A program within a reach without writes and events does nothing. -/
theorem Within.ensures_does {r : Reach} {p : Program α} (hp : p.Within r)
    (hwrites : ∀ key value, ¬ r.writes key value) (hevents : ∀ event, ¬ r.publishes event) :
    p.Ensures climate limit (fun _ t' => t.Does [] [] t') (fun t' => t.Does [] [] t') t := by
  refine (hp.keeps.ensures (Contract.upheld_within r t.world.store) Reach.Preserves.turns
    (r.preserves_self t.world)).imp (fun _ t' h => ?_) fun t' h => ?_
  · exact Moment.does_of_allowsBetween hwrites hevents h.2.2
  · exact Moment.does_of_allowsBetween hwrites hevents h.2

end Program

end SealedChannel
