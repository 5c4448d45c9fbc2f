import SealedChannel.Proofs.Program.Delivery
import SealedChannel.Proofs.Session.Basic
import SealedChannel.Proofs.Storage.ModeChange

/-!
# Modes in a session

A change of a mode may be a whole demand or only the first part of one, and whatever becomes of the
rest, the mode is settled when the change has returned without an error.

## What is here

* `Switch`, `Demand.switch?` — the change of a mode within a demand.
* `Session.settles?` — the mode that a step settles.
* `Session.modeOf_run` — after a session, the mode of a channel is the last one that was settled.
-/

set_option autoImplicit false
namespace SealedChannel

/-! ## Changes of a mode within demands -/

/-- A change of a mode within a demand. -/
structure Switch where
  channelId : String
  mode : Mode
  /-- The demand up to the end of the change; tells whether the change returned without an error. -/
  program : Program Bool

/-- Whether the change returns without an error, whatever becomes of the rest of the demand. -/
def Switch.returns (switch : Switch) (weather : Weather) (limit : Option Duration) (w : World) :
    Bool :=
  (switch.program.runAmid weather limit w).1.value? == some true

/-- The change of a mode within a demand. -/
def Demand.switch? (s : Service) : Demand → Option Switch
  | .changeMode userId channelId mode =>
    some ⟨channelId, mode, Except.isOk <$> (Service.switchMode s.modes userId channelId mode).run⟩
  | .answer request =>
    request.switch?.map fun (userId, channelId, mode) =>
      ⟨channelId, mode, Except.isOk <$> (Service.switchMode s.modes userId channelId mode).run⟩
  | .setMode modes channelId mode =>
    some ⟨channelId, mode, Except.isOk <$> (modes.setIfDifferent channelId mode).run⟩
  | _ => none

/-- The mode that a step settles on a channel. -/
def Session.settles? (channelId : String) (s : Session) : Step → Option Mode
  | .demand weather d => ((d.switch? s.service).filter fun switch =>
      switch.channelId == channelId && switch.returns weather d.limit? s.world).map Switch.mode
  | .change _ => none

/-! ## What a change of a mode has done -/

namespace Service

open Program

variable {climate : Climate} {limit : Option Duration} {t : Moment} {channelId : String}

/-- A switch that returns without an error is in time and has settled the mode, and any other one
has left the value as it was.  Of the platform at most the conditions have changed. -/
theorem ensures_switchMode (modes : Modes) (userId : String) (mode : Mode)
    (hw : t.world.store.Spares (Key.mode channelId)) :
    (switchMode modes userId channelId mode).run.Ensures climate limit
      (fun result t' => match result with
        | .ok changed => isOver limit t'.waited = false ∧
          t.world.host.Turns climate t'.world.host ∧
            Modes.Decides channelId mode t.world.store (.ok changed) t'.world.store
        | .error _ => Modes.Untouched channelId t.world.store t'.world)
      (fun t' => Modes.Untouched channelId t.world.store t'.world) t := by
  rw [switchMode, ensures_run_bind, requireMember, ensures_run_bind, ensures_run_wrap]
  refine .run_host (fun w hturns _ => hturns.get? _) fun w answer host hturns _ hcall => ?_
  obtain rfl := Host.eq_of_getChannelMember hcall
  cases answer with
  | error e => exact hturns.get? _
  | ok member =>
    let asked : Moment :=
      (t.turned w).answered (.host (.getChannelMember channelId userId)) (.ok member) w
    have hset : (modes.setIfDifferent channelId mode).run.Ensures climate limit _ _ asked :=
      modes.ensures_setIfDifferent mode (hturns.spares hw)
    have hbefore := hturns.get? (Key.mode channelId)
    refine ensures_run_wrap.2 (hset.imp ?_ fun _ h => h.1.trans hbefore)
    rintro (e | changed) t' h
    · exact Modes.Decides.congr h.store hbefore rfl
    · exact ⟨h.inTime, hturns.host.trans h.rest.host, h.store.congr hbefore rfl⟩

end Service

namespace Demand

variable {s : Service} {d : Demand} {w : World} {channelId : String}

/-- A demand that writes the mode of a channel is a change in that channel. -/
theorem switch?_of_mayWrite {value : Option Bytes} (h : d.mayWrite (Key.mode channelId) value) :
    ∃ switch, d.switch? s = some switch ∧ switch.channelId = channelId := by
  rcases of_mayWrite_mode h with ⟨userId, mode, hswitching⟩ | ⟨modes, mode, rfl⟩
  · cases d with
    | changeMode other otherId otherMode =>
      obtain ⟨-, hrest⟩ := Prod.mk.inj (Option.some.inj hswitching)
      exact ⟨_, rfl, (Prod.mk.inj hrest).1⟩
    | answer request =>
      rw [switching?] at hswitching
      exact ⟨_, by rw [switch?, hswitching]; rfl, rfl⟩
    | _ => cases hswitching
  · exact ⟨_, rfl, rfl⟩

/-- What the change of a mode within a demand has done, by whether it returned without an error. -/
theorem ensures_switch {switch : Switch} (h : d.switch? s = some switch) {climate : Climate}
    {limit : Option Duration} {t : Moment}
    (hw : t.world.store.Spares (Key.mode switch.channelId)) :
    switch.program.Ensures climate limit
      (fun returned t' =>
        if returned then t'.world.store.modeOf switch.channelId = switch.mode
        else Modes.Untouched switch.channelId t.world.store t'.world)
      (fun t' => Modes.Untouched switch.channelId t.world.store t'.world) t := by
  cases d with
  | changeMode userId other mode =>
    obtain rfl := Option.some.inj h
    refine Program.ensures_map.2
      ((Service.ensures_switchMode s.modes userId mode hw).imp ?_ fun _ h => h)
    rintro (e | changed) t' ht'
    · exact ht'
    · exact ht'.2.2.modeOf
  | answer request =>
    obtain ⟨⟨userId, other, mode⟩, -, rfl⟩ := Option.map_eq_some_iff.1 h
    refine Program.ensures_map.2
      ((Service.ensures_switchMode s.modes userId mode hw).imp ?_ fun _ h => h)
    rintro (e | changed) t' ht'
    · exact ht'
    · exact ht'.2.2.modeOf
  | setMode modes other mode =>
    obtain rfl := Option.some.inj h
    refine Program.ensures_map.2 ((modes.ensures_setIfDifferent mode hw).imp ?_ fun _ h => h.1)
    rintro (e | changed) t' ht'
    · exact ht'.store
    · exact ht'.store.modeOf
  | _ => cases h

/-- A change that returned without an error has settled the mode, and any other one has left it as
it was. -/
theorem modeOf_switch {switch : Switch} (h : d.switch? s = some switch) {weather : Weather}
    {limit : Option Duration} (hw : w.store.Spares (Key.mode switch.channelId)) :
    (switch.program.runAmid weather limit w).2.store.modeOf switch.channelId =
      if switch.returns weather limit w then switch.mode
      else w.store.modeOf switch.channelId := by
  have hends : switch.program.Ensures weather.climate limit _ _ (.start w) := ensures_switch h hw
  obtain ⟨hfinished, hcut⟩ := hends.of_runAmid fun _ => id
  rw [Switch.returns]
  cases houtcome : (switch.program.runAmid weather limit w).1 with
  | finished returned =>
    obtain ⟨waited, hpost⟩ := hfinished returned houtcome
    cases returned with
    | true => exact hpost
    | false => exact congrArg Mode.current hpost
  | _ =>
    obtain ⟨waited, w', huntouched, hw'⟩ := hcut (by rw [houtcome]; rfl)
    rw [hw']
    exact congrArg Mode.current huntouched

end Demand

/-! ## The mode of a channel -/

namespace Session

open Program

variable {s : Session} {d : Demand} {channelId : String}

/-- What comes after the change of a mode within a demand writes nothing. -/
theorem get?_meet_of_switch {key : String} (hw : s.world.store.Spares key) (weather : Weather)
    {switch : Switch} (h : d.switch? s.service = some switch) :
    (s.meet weather d).world.store.get? key
      = (switch.program.runAmid weather d.limit? s.world).2.store.get? key := by
  have hchange (limit : Option Duration) (userId channelId : String) (mode : Mode) :
      ((s.service.changeMode userId channelId mode).run.runAmid weather limit
        s.world).2.store.get? key =
      ((Except.isOk <$> (Service.switchMode s.service.modes userId channelId mode).run).runAmid
        weather limit s.world).2.store.get? key := by
    rw [Service.changeMode_eq, runAmid_map]
    exact get?_runAmid_run_bind (s.service.writes_announceMode userId channelId mode) hw
  rw [world_meet]
  cases d with
  | changeMode userId other mode =>
    obtain rfl := Option.some.inj h
    rw [Demand.program, runAmid_map]
    exact hchange none userId other mode
  | answer request =>
    obtain ⟨⟨userId, other, mode⟩, hswitch, rfl⟩ := Option.map_eq_some_iff.1 h
    rw [Demand.program, runAmid_map, (Http.Api.answers_of_switch s.service hswitch).serve,
      runAmid_map]
    exact hchange _ userId other mode
  | setMode modes other mode =>
    obtain rfl := Option.some.inj h
    rw [Demand.program, runAmid_map, runAmid_map]
  | _ => cases h

/-- A step leaves the mode of a channel as it was, or settles it. -/
theorem modeOf_step {event : Step} (hw : s.world.store.Spares (Key.mode channelId))
    (hchange : ∀ change, event = .change change → change.Spares (Key.mode channelId)) :
    (s.step event).world.store.modeOf channelId =
      (settles? channelId s event).getD (s.world.store.modeOf channelId) := by
  cases event with
  | change change =>
    exact congrArg Mode.current (World.get?_change (hchange change rfl))
  | demand weather d =>
    by_cases hswitch : ∃ switch, d.switch? s.service = some switch ∧ switch.channelId = channelId
    · obtain ⟨switch, hswitch, rfl⟩ := hswitch
      have hget := get?_meet_of_switch hw weather hswitch
      rw [step, Store.modeOf, hget, ← Store.modeOf, Demand.modeOf_switch hswitch hw, settles?,
        hswitch]
      cases hreturns : switch.returns weather d.limit? s.world <;> simp [Option.filter, hreturns]
    · have hsame : (s.meet weather d).world.store.get? (Key.mode channelId)
          = s.world.store.get? (Key.mode channelId) := by
        rw [world_meet]
        refine Decidable.byContradiction fun hne => hswitch ?_
        exact Demand.switch?_of_mayWrite ((d.writes_program s.service).of_get?_runAmid_ne hw hne)
      have hnone : settles? channelId s (.demand weather d) = none := by
        rw [settles?, Option.map_eq_none_iff, Option.filter_eq_none_iff]
        intro switch h hsettles
        rw [Bool.and_eq_true, beq_iff_eq] at hsettles
        exact hswitch ⟨switch, h, hsettles.1⟩
      rw [hnone]
      exact congrArg Mode.current hsame

/-- **The mode of a channel.**  After a session in which nobody else writes it, the mode of a
channel is the last one that was settled, or the one that it had at first. -/
theorem modeOf_run (hw : s.world.store.Spares (Key.mode channelId)) {steps : List Step}
    (hsteps : ∀ change, .change change ∈ steps → change.Spares (Key.mode channelId)) :
    (s.run steps).world.store.modeOf channelId =
      (s.history (settles? channelId) steps).getLastD (s.world.store.modeOf channelId) := by
  induction steps generalizing s with
  | nil => rfl
  | cons event steps ih =>
    have hrest := ih (spares_step hw event) fun change hchange =>
      hsteps change (List.mem_cons_of_mem _ hchange)
    have hevent : ∀ change, event = .change change → change.Spares (Key.mode channelId) :=
      fun change hchange => hsteps change (by rw [hchange]; exact List.mem_cons_self)
    rw [modeOf_step hw hevent] at hrest
    rw [history]
    cases hsettles : settles? channelId s event with
    | none => rw [hsettles] at hrest; exact hrest
    | some mode =>
      rw [hsettles] at hrest
      refine hrest.trans ?_
      rw [Option.getD_some, Option.toList_some, List.singleton_append, List.getLastD_cons]

end Session

end SealedChannel
