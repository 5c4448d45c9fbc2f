import SealedChannel.Proofs.Chat.Call
import SealedChannel.Proofs.Program.Ending

/-!
# What a run delivers

The platform keeps lists of what it has been asked to deliver, and a call can only add to them.  So
what a run has published and mailed is told by its exchanges.

## What is here

* `World.IsLog` — a list in the world to which exchanges add.
* `World.IsLog.runAmid` — what a run has added, with `isLog_events` and `isLog_mails`.
* `World.ToldBy`, `Program.toldBy_runAmid` — what a run leaves and delivers, as its exchanges tell.
* `Moment.events` — the events published so far.
* `Program.Within.ensures_silent` — a program that may publish nothing publishes nothing.
-/

set_option autoImplicit false
namespace SealedChannel

/-- Only a call that publishes an event has published it. -/
theorem Exchange.call_of_event? {e : Exchange} {event : Event} (h : e.event? = some event) :
    e.call.event? = some event := by
  unfold event? at h
  split at h
  · exact h
  · cases h

/-! ## Lists to which exchanges add -/

namespace World

/-- A list in the world to which nothing is done but that exchanges add to it. -/
structure IsLog {β : Type} (view : World → List β) (tell : Exchange → Option β) : Prop where
  held : ∀ w locks, view { w with held := locks } = view w
  under : ∀ w c, view (World.under w c) = view w
  begin : ∀ w c, view (w.begin c) = view w
  cut : ∀ c, tell ⟨c, none⟩ = none
  react : ∀ {w c answer w'}, w.react c = .answered answer w' →
    view w' = view w ++ (tell ⟨c, some answer⟩).toList

variable {α β : Type} {view : World → List β} {tell : Exchange → Option β}

theorem IsLog.runAmidFrom (h : IsLog view tell) (limit : Option Duration) (p : Program α)
    (weather : Weather) (waited : Duration) (w : World) :
    view (p.runAmidFrom limit weather waited w).2 =
      view w ++ (p.transcriptAmidFrom limit weather waited w).filterMap tell := by
  induction p generalizing weather waited w with
  | done a => exact (List.append_nil _).symm
  | call c next ih =>
    have hnext : view (weather.next w) = view w :=
      (weather.turns_next (fun _ => id) w).congr h.under
    rcases Program.runAmidFrom_call_cases limit c next weather waited w with
      ⟨answer, w', hreact, hrun, htranscript⟩ | ⟨outcome, w', -, hw', hrun, htranscript⟩
    · rw [hrun, htranscript, ih, h.react hreact, hnext, List.append_assoc, List.filterMap_cons]
      cases tell ⟨c, some answer⟩ <;> rfl
    · rw [hrun, htranscript, List.filterMap_cons, h.cut, List.filterMap_nil, List.append_nil]
      rcases hw' with rfl | rfl
      · exact hnext
      · exact (h.begin _ c).trans hnext

/-- **Logs.**  A run has added to the list what its exchanges tell. -/
theorem IsLog.runAmid (h : IsLog view tell) (weather : Weather) (limit : Option Duration)
    (p : Program α) (w : World) : view (p.runAmid weather limit w).2 =
      view w ++ (p.transcriptAmid weather limit w).filterMap tell := by
  rw [Program.transcriptAmid, ← h.runAmidFrom, Program.runAmid]
  generalize p.runAmidFrom limit weather ⟨0⟩ w = ending
  obtain ⟨outcome, w'⟩ := ending
  cases outcome with
  | finished a => rfl
  | _ => exact h.held w' w.held

/-- What a call to the platform adds is all that is ever added to its lists. -/
theorem isLog_host {view : Host → List β}
    (hunder : ∀ h c, view (Host.under h c) = view h) (hcut : ∀ c, tell ⟨c, none⟩ = none)
    (hhost : ∀ {h h' : Host} {c : HostCall} {answer : Except HostError c.Answer},
      h.call c = some (answer, h') → view h' = view h ++ (tell ⟨.host c, some answer⟩).toList)
    (hother : ∀ e : Exchange, (∀ c, e.call ≠ .host c) → tell e = none) :
    IsLog (fun w => view w.host) tell where
  held _ _ := rfl
  under _ _ := hunder _ _
  begin _ c := by cases c <;> rfl
  cut := hcut
  react {w c answer w'} hreact := by
    by_cases hc : ∃ call, c = .host call
    · obtain ⟨call, rfl⟩ := hc
      rw [World.react] at hreact
      split at hreact
      · cases hreact
      · rename_i hcall
        cases hreact
        exact hhost hcall
    · have hnone := hother ⟨c, some answer⟩ fun call heq => hc ⟨call, heq⟩
      rw [hnone, World.host_react (fun call heq => hc ⟨call, heq⟩) hreact]
      exact (List.append_nil _).symm

theorem isLog_events : IsLog (fun w => w.host.events) Exchange.event? := by
  refine isLog_host (fun _ _ => rfl) Exchange.event?_none
    (fun hcall => (Host.call_adds hcall).events) fun e he => ?_
  unfold Exchange.event?
  split
  · exact absurd rfl (he _)
  · rfl

theorem isLog_mails : IsLog (fun w => w.host.mails) Exchange.mail? := by
  refine isLog_host (fun _ _ => rfl) Exchange.mail?_none
    (fun hcall => (Host.call_adds hcall).mails) fun e he => ?_
  unfold Exchange.mail?
  split
  · exact absurd rfl (he _)
  · rfl

end World

/-! ## Runs -/

/-- What was left in a world, as far as no foreign write is waiting, and what was delivered is told
by the exchanges. -/
structure World.ToldBy (w : World) (exchanges : List Exchange) (w' : World) : Prop where
  get? : ∀ {key}, w.store.Spares key →
    w'.store.get? key = (Exchange.lastEffect? key exchanges).getD (w.store.get? key)
  events : w'.host.events = w.host.events ++ exchanges.filterMap Exchange.event?
  mails : w'.host.mails = w.host.mails ++ exchanges.filterMap Exchange.mail?

/-- **Runs and their exchanges.**  What a run leaves and delivers is told by its exchanges. -/
theorem Program.toldBy_runAmid {α : Type} (weather : Weather) (limit : Option Duration)
    (p : Program α) (w : World) :
    w.ToldBy (p.transcriptAmid weather limit w) (p.runAmid weather limit w).2 where
  get? hw := get?_runAmid hw weather limit p
  events := World.isLog_events.runAmid weather limit p w
  mails := World.isLog_mails.runAmid weather limit p w

/-- A key holds what a successful write has put there, if no other value was to be written. -/
theorem World.ToldBy.get?_of_succeeded {w w' : World} {exchanges : List Exchange} {key : String}
    {value : Option Bytes} (h : w.ToldBy exchanges w') (hw : w.store.Spares key)
    (hwritten : ∃ e ∈ exchanges, e.effectOn? key = some value)
    (hothers : ∀ e ∈ exchanges, ∀ other, e.call.target? = some (key, other) → other = value) :
    w'.store.get? key = value := by
  rw [h.get? hw]
  cases hlast : Exchange.lastEffect? key exchanges with
  | none =>
    obtain ⟨e, he, heffect⟩ := hwritten
    have hnone := List.getLast?_eq_none_iff.1 hlast
    exact absurd heffect (by rw [List.filterMap_eq_nil_iff.1 hnone e he]; rintro ⟨⟩)
  | some other =>
    obtain ⟨e, he, heffect⟩ := Exchange.exists_of_lastEffect? hlast
    exact hothers e he other (Exchange.target?_of_effectOn? heffect)

/-! ## Programs that publish nothing -/

/-- The events that a run has published so far. -/
def Moment.events (t : Moment) : List Event :=
  t.made.filterMap Exchange.event?

theorem Moment.events_answered (t : Moment) (c : Call) (answer : c.Answer) (w : World) :
    (t.answered c answer w).events =
      t.events ++ (Exchange.event? ⟨c, some answer⟩).toList := by
  rw [events, answered, List.filterMap_append, List.filterMap_cons]
  cases Exchange.event? ⟨c, some answer⟩ <;> rfl

/-- Calls within a reach without events publish nothing. -/
theorem Moment.events_of_allowsBetween {r : Reach} {t t' : Moment}
    (hr : ∀ event, ¬ r.publishes event) (h : (Contract.within r).AllowsBetween t t') :
    t'.events = t.events := by
  obtain ⟨later, hmade, hallows⟩ := h
  have hnone : later.filterMap Exchange.event? = [] := by
    refine List.filterMap_eq_nil_iff.2 fun e he => Option.eq_none_iff_forall_ne_some.2 ?_
    intro event hevent
    exact hr event ((hallows e he).publishes event (Exchange.call_of_event? hevent))
  rw [events, hmade, List.filterMap_append, hnone, List.append_nil]
  rfl

/-- A program that may publish nothing publishes nothing, and preserves what its reach preserves,
whether or not it comes to its end. -/
theorem Program.Within.ensures_silent {α : Type} {r : Reach} {p : Program α} {climate : Climate}
    {limit : Option Duration} {t : Moment} (hp : p.Within r) (hr : ∀ event, ¬ r.publishes event) :
    p.Ensures climate limit
      (fun _ t' => t'.events = t.events ∧ r.Preserves t.world.store t'.world)
      (fun t' => t'.events = t.events ∧ r.Preserves t.world.store t'.world) t := by
  refine (hp.keeps.ensures (Contract.upheld_within r t.world.store) Reach.Preserves.turns
    (r.preserves_self t.world)).imp (fun _ t' h => ?_) fun t' h => ?_
  · exact ⟨Moment.events_of_allowsBetween hr h.2.2, h.2.1⟩
  · exact ⟨Moment.events_of_allowsBetween hr h.2, h.1⟩

end SealedChannel
