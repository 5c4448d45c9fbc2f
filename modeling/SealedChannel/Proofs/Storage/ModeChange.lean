import SealedChannel.Proofs.Program.Ending
import SealedChannel.Proofs.Storage.Modes

/-!
# A change of a mode on its own

When nobody else writes to the mode of a channel, a change that returns without an error has settled
the mode and tells whether it was another one, and any other change, one that was cut off included,
has left it as it was.  This holds with compare-and-set and without it, in every climate, and under
every limit: after the call that writes there is nothing left to wait for.

## What is here

* `World.SameRest` — only the store and the conditions have changed.
* `Modes.Decides` — what a change does to the mode, by its result.
* `Modes.Decided` — what is known when a change comes to its end.
* `Modes.ensures_setIfDifferent` — every change on its own ends in this way.
-/

set_option autoImplicit false
namespace SealedChannel

/-- One more call that was answered. -/
theorem Moment.all_answered (t : Moment) (c : Call) (answer : c.Answer) (w : World) :
    (t.answered c answer w).made.all Exchange.succeeded =
      (t.made.all Exchange.succeeded && (⟨c, some answer⟩ : Exchange).succeeded) := by
  simp [answered]

/-- Only the store and the conditions have changed. -/
structure World.SameRest (climate : Climate) (w w' : World) : Prop where
  host : w.host.Turns climate w'.host
  keyServer : w'.keyServer = w.keyServer
  held : w'.held = w.held

namespace World.SameRest

variable {climate : Climate} {w w' w'' : World}

theorem refl (climate : Climate) (w : World) : w.SameRest climate w :=
  ⟨.refl climate _, rfl, rfl⟩

theorem turns (h : w.SameRest climate w') (hw : w'.Turns climate w'') :
    w.SameRest climate w'' :=
  ⟨h.host.trans hw.host, (hw.congr (f := World.keyServer) fun _ _ => rfl).trans h.keyServer,
    (hw.congr (f := World.held) fun _ _ => rfl).trans h.held⟩

/-- In a calm climate only the store has changed. -/
theorem eq_of_calm (h : w.SameRest .calm w') : w' = { w with store := w'.store } := by
  obtain ⟨store, host, keyServer, held⟩ := w'
  obtain ⟨hhost, rfl, rfl⟩ := h
  obtain rfl := hhost.eq_of_calm
  rfl

end World.SameRest

namespace Modes

open Program

/-- What a change does to the mode of a channel: one that was confirmed has written the new mode
over another one, one that found the mode in place has left it there, and one that failed has left
the value as it was. -/
def Decides (channelId : String) (mode : Mode) (before : Store) (result : Except StoreError Bool)
    (after : Store) : Prop :=
  match result with
  | .ok true => before.modeOf channelId ≠ mode ∧
      after.get? (Key.mode channelId) = some mode.encode
  | .ok false => before.modeOf channelId = mode ∧
      after.get? (Key.mode channelId) = before.get? (Key.mode channelId)
  | .error _ => after.get? (Key.mode channelId) = before.get? (Key.mode channelId)

/-- A change that returns without an error has settled the mode. -/
theorem Decides.modeOf {channelId : String} {mode : Mode} {before after : Store} {changed : Bool}
    (h : Decides channelId mode before (.ok changed) after) : after.modeOf channelId = mode := by
  cases changed with
  | true => rw [Store.modeOf, h.2, Mode.current_encode]
  | false => rw [Store.modeOf, h.2, ← h.1, Store.modeOf]

/-- It is the values before and after a change that count. -/
theorem Decides.congr {channelId : String} {mode : Mode} {before before' after after' : Store}
    {result : Except StoreError Bool} (h : Decides channelId mode before result after)
    (hbefore : before.get? (Key.mode channelId) = before'.get? (Key.mode channelId))
    (hafter : after'.get? (Key.mode channelId) = after.get? (Key.mode channelId)) :
    Decides channelId mode before' result after' := by
  have hmode : before.modeOf channelId = before'.modeOf channelId := congrArg Mode.current hbefore
  rcases result with e | _ | _
  · exact (hafter.trans h).trans hbefore
  · exact ⟨hmode ▸ h.1, (hafter.trans h.2).trans hbefore⟩
  · exact ⟨hmode ▸ h.1, hafter.trans h.2⟩

variable {climate : Climate} {limit : Option Duration} {m : Modes} {channelId : String}
  {mode : Mode} {t₀ t : Moment}

/-- The value under the mode of the channel is still the one in `before`. -/
def Untouched (channelId : String) (before : Store) (w : World) : Prop :=
  w.store.get? (Key.mode channelId) = before.get? (Key.mode channelId)

theorem Untouched.begin {before : Store} {w : World} (h : Untouched channelId before w)
    (c : Call) : Untouched channelId before (w.begin c) := by
  rw [Untouched, World.get?_begin, h]

theorem Untouched.turns {before : Store} {w w' : World} (h : Untouched channelId before w)
    (hw : w.Turns climate w') : Untouched channelId before w' :=
  (hw.get? _).trans h

/-- What is known while a change has not written yet. -/
structure Pending (climate : Climate) (limit : Option Duration) (channelId : String)
    (t₀ t : Moment) : Prop where
  inTime : isOver limit t.waited = false
  spares : t.world.store.Spares (Key.mode channelId)
  rest : t₀.world.SameRest climate t.world
  untouched : Untouched channelId t₀.world.store t.world
  succeeded : t.made.all Exchange.succeeded = t₀.made.all Exchange.succeeded

/-- What is known when a change is cut off: nothing is written, and there is a limit. -/
structure CutOff (limit : Option Duration) (channelId : String) (t₀ t : Moment) : Prop where
  untouched : Untouched channelId t₀.world.store t.world
  limited : limit ≠ none

/-- What is known when a change comes to its end: nothing but the store and the conditions have
changed, and the result is an error if and only if a call has failed. -/
structure Decided (climate : Climate) (limit : Option Duration) (channelId : String) (mode : Mode)
    (t₀ : Moment) (result : Except StoreError Bool) (t : Moment) : Prop where
  inTime : isOver limit t.waited = false
  rest : t₀.world.SameRest climate t.world
  store : Decides channelId mode t₀.world.store result t.world.store
  succeeded : t.made.all Exchange.succeeded = (t₀.made.all Exchange.succeeded && result.isOk)

/-! ## Single calls -/

/-- It does not matter that the world turns. -/
theorem Pending.turned {w : World} (h : Pending climate limit channelId t₀ t)
    (hw : t.world.Turns climate w) : Pending climate limit channelId t₀ (t.turned w) :=
  ⟨h.inTime, hw.spares h.spares, h.rest.turns hw, h.untouched.turns hw, h.succeeded⟩

section Calls

variable (h : Pending climate limit channelId t₀ t) {l : Duration} {c : StoreCall} {store : Store}
  (hin : t.expires limit (.store l c) = false)
include h hin

omit hin in
/-- A call in which the limit passes has written nothing. -/
theorem Pending.cutOff (hover : t.expires limit (.store l c) = true) :
    CutOff limit channelId t₀ (t.cutIn (.store l c) (t.world.begin (.store l c))) :=
  ⟨h.untouched.begin _, ne_none_of_isOver hover⟩

/-- A call that failed is the end of a change. -/
theorem Pending.failed {e : StoreError}
    (hcall : t.world.store.call (some l) c = (.error e, store)) :
    Decided climate limit channelId mode t₀ (.error e)
      (t.answered (.store l c) (.error e) { t.world with store }) := by
  have hget := Store.get?_call h.spares (some l) c
  rw [hcall, StoreCall.effectOn?_error, Option.getD_none] at hget
  refine ⟨hin, ⟨h.rest.host, h.rest.keyServer, h.rest.held⟩, hget.trans h.untouched, ?_⟩
  rw [Moment.all_answered, h.succeeded]
  rfl

/-- After a call without an effect there is still nothing written. -/
theorem Pending.read {raw : c.Answer} (hcall : t.world.store.call (some l) c = (.ok raw, store))
    (hnone : c.effectOn? (Key.mode channelId) (.ok raw) = none) :
    Pending climate limit channelId t₀
      (t.answered (.store l c) (.ok raw) { t.world with store }) := by
  have hget := Store.get?_call h.spares (some l) c
  have hspares := h.spares.call (some l) c
  rw [hcall, hnone, Option.getD_none] at hget
  rw [hcall] at hspares
  refine ⟨hin, hspares, ⟨h.rest.host, h.rest.keyServer, h.rest.held⟩, hget.trans h.untouched, ?_⟩
  rw [Moment.all_answered, h.succeeded]
  exact Bool.and_true _

/-- A call that writes the mode over another one confirms the change. -/
theorem Pending.written {answer : c.Answer}
    (hcall : t.world.store.call (some l) c = (.ok answer, store))
    (heffect : c.effectOn? (Key.mode channelId) (.ok answer) = some (some mode.encode))
    (hmode : t₀.world.store.modeOf channelId ≠ mode) :
    Decided climate limit channelId mode t₀ (.ok true)
      (t.answered (.store l c) (.ok answer) { t.world with store }) := by
  have hget := Store.get?_call h.spares (some l) c
  rw [hcall, heffect, Option.getD_some] at hget
  refine ⟨hin, ⟨h.rest.host, h.rest.keyServer, h.rest.held⟩, ⟨hmode, hget⟩, ?_⟩
  rw [Moment.all_answered, h.succeeded]
  rfl

end Calls

/-! ## Changes -/

/-- A read, and then what is to be done with its answer: nothing if the mode is there already. -/
theorem ensures_read {next : Option Bytes → Operation StoreError Bool}
    (h : Pending climate limit channelId t₀ t)
    (hnext : ∀ t', Pending climate limit channelId t₀ t' →
      t₀.world.store.modeOf channelId ≠ mode →
        (next (t₀.world.store.get? (Key.mode channelId))).run.Ensures climate limit
          (Decided climate limit channelId mode t₀) (CutOff limit channelId t₀) t') :
    (do
      let raw : Option Bytes ← Operation.store m.limit (.get (Key.mode channelId))
      if Mode.current raw = mode then return false
      next raw : Operation StoreError Bool).run.Ensures climate limit
        (Decided climate limit channelId mode t₀) (CutOff limit channelId t₀) t := by
  refine ensures_run_bind.2 (.run_store (fun w hw => (h.turned hw).cutOff)
    fun w answer store hw hin hcall => ?_)
  have hturned := h.turned hw
  cases answer with
  | error e => exact hturned.failed hin hcall
  | ok raw =>
    have hread := hturned.read hin hcall rfl
    obtain rfl : raw = t₀.world.store.get? (Key.mode channelId) :=
      (Store.call_get (congrArg Prod.fst hcall)).trans hturned.untouched
    dsimp only
    split
    · rename_i hsame
      exact ⟨hread.inTime, hread.rest, ⟨hsame, hread.untouched⟩,
        hread.succeeded.trans (Bool.and_true _).symm⟩
    · rename_i hother
      exact hnext _ hread hother

/-- A change by a swap over the value that was read, which succeeds at the first attempt because
nobody else writes. -/
theorem ensures_exchange (h : Pending climate limit channelId t₀ t) (attempts : Nat) :
    (m.exchange channelId mode (attempts + 1)).run.Ensures climate limit
      (Decided climate limit channelId mode t₀) (CutOff limit channelId t₀) t := by
  refine ensures_read h fun t' h' hmode => ?_
  refine ensures_run_bind.2 (.run_store (fun w hw => (h'.turned hw).cutOff)
    fun w answer store hw hin hcall => ?_)
  have hturned := h'.turned hw
  cases answer with
  | error e => exact hturned.failed hin hcall
  | ok swapped =>
    obtain rfl : swapped = true :=
      (Store.call_compareAndSet hturned.spares (congrArg Prod.fst hcall)).2 hturned.untouched
    refine hturned.written hin hcall ?_ hmode
    simp [StoreCall.effectOn?, StoreCall.target?, StoreCall.tookEffect]

/-- A change by a plain write. -/
theorem ensures_replace (h : Pending climate limit channelId t₀ t) :
    (m.replace channelId mode).run.Ensures climate limit
      (Decided climate limit channelId mode t₀) (CutOff limit channelId t₀) t := by
  refine ensures_read h fun t' h' hmode => ?_
  refine ensures_run_bind.2 (.run_store (fun w hw => (h'.turned hw).cutOff)
    fun w answer store hw hin hcall => ?_)
  have hturned := h'.turned hw
  cases answer with
  | error e => exact hturned.failed hin hcall
  | ok done =>
    refine hturned.written hin hcall ?_ hmode
    simp [StoreCall.effectOn?, StoreCall.target?, StoreCall.tookEffect, Except.isOk, Except.toBool]

/-- **A change on its own.**  A change that returns without an error has settled the mode and tells
whether it was another one; one that returns an error or is cut off has left the value as it was.  A
change is cut off only by a limit or by a lock that is held. -/
theorem ensures_setIfDifferent (m : Modes) (mode : Mode)
    (hw : t.world.store.Spares (Key.mode channelId)) :
    (m.setIfDifferent channelId mode).run.Ensures climate limit
      (Decided climate limit channelId mode t)
      (fun t' => Untouched channelId t.world.store t'.world ∧
        (limit = none → m.lockOf channelId ∈ t.world.held)) t := by
  rw [setIfDifferent, ExceptT.run_mk]
  refine .locked (fun w hturns h => ⟨hturns.get? _, ?_⟩) fun w hturns hin => ?_
  · rintro rfl
    have hheld : w.held = t.world.held := ((World.SameRest.refl climate _).turns hturns).held
    exact hheld ▸ h.resolve_left (by rintro ⟨⟩)
  · let locked : Moment := (t.turned w).answered (.acquire (m.lockOf channelId)) ()
      { w with held := m.lockOf channelId :: w.held }
    have h : Pending climate limit channelId locked locked :=
      ⟨hin, hturns.spares hw, .refl climate _, rfl, rfl⟩
    have hchange : (if m.atomic then (m.exchange channelId mode rounds).run
        else (m.replace channelId mode).run).Ensures climate limit
          (Decided climate limit channelId mode locked) (CutOff limit channelId locked)
          locked := by
      split
      · exact ensures_exchange h 7
      · exact ensures_replace h
    have hbefore : locked.world.store.get? (Key.mode channelId)
        = t.world.store.get? (Key.mode channelId) := hturns.get? _
    refine hchange.imp (fun result t' h' => ⟨h'.inTime, fun w' hw' => ?_⟩)
      fun _ h' => ⟨h'.untouched.trans hbefore, fun hnone => absurd hnone h'.limited⟩
    have hrest := h'.rest.turns hw'
    have hturned := (World.SameRest.refl climate _).turns hturns
    refine ⟨h'.inTime, ⟨?_, ?_, ?_⟩, h'.store.congr hbefore (hw'.get? _), ?_⟩
    · exact hturned.host.trans hrest.host
    · exact hrest.keyServer.trans hturned.keyServer
    · have hheld : w'.held = m.lockOf channelId :: w.held := hrest.held
      change w'.held.erase _ = _
      rw [hheld, List.erase_cons_head, hturned.held]
    · rw [Moment.all_answered, Moment.turned, h'.succeeded, Moment.all_answered]
      simp [Exchange.succeeded, Moment.turned]

end Modes

end SealedChannel
