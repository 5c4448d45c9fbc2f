import SealedChannel.Proofs.Service.Announcement

/-!
# Changes of a mode that fail

A change that is not allowed, or is not stored, may be asked for again.  What fails after the write,
such as the announcement, takes nothing back: nobody who asks again is told of a change, and the
change is not announced any more.  All this holds however the conditions change meanwhile, so that a
change may find the store as it should be and lose it before the keys for the announcement are read.

## What is here

* `Service.Retells` — what a change tells and announces that is asked for again.
* `Service.Unswitched`, `Service.Switched` — the two ends of a change that fails.
* `Service.failed_changeMode` — every change that fails has come to one of them, and its error tells
  to which.
-/

set_option autoImplicit false
namespace SealedChannel
namespace Service

open Program

variable {s : Service} {userId channelId : String} {mode : Mode} {weather : Weather}
  {limit : Option Duration} {w : World}

/-! ## What a change has done -/

/-- A change that succeeds has published and announced that the mode was another one, or neither. -/
def Tells (s : Service) (climate : Climate) (userId channelId : String) (mode : Mode)
    (before : Host) (after : World) (told : Bool) : Prop :=
  if told then s.HasAnnounced climate userId channelId mode before after
  else after.host.events = before.events ∧ after.host.posts = before.posts

/-- A change that is asked for again, after nobody else has written the mode, tells whether it was
another one, and is published and announced if it was. -/
def Retells (s : Service) (userId channelId : String) (mode : Mode) (w : World)
    (changed : Prop) : Prop :=
  ∀ later weather limit told, later.store.Spares (Key.mode channelId) →
    later.store.get? (Key.mode channelId) = w.store.get? (Key.mode channelId) →
    ((s.changeMode userId channelId mode).run.runAmid weather limit later).1
      = .finished (.ok told) →
      (told = true ↔ changed) ∧
      s.Tells weather.climate userId channelId mode later.host
        ((s.changeMode userId channelId mode).run.runAmid weather limit later).2 told

/-- A change has done nothing, and may be asked for again. -/
structure Unswitched (s : Service) (climate : Climate) (userId channelId : String) (mode : Mode)
    (w : World) (calls : List Exchange) (w' : World) : Prop where
  host : w.host.Turns climate w'.host
  writes : calls.filterMap Exchange.write? = []
  value : w.store.Spares (Key.mode channelId) →
    w'.store.get? (Key.mode channelId) = w.store.get? (Key.mode channelId)
  again : w.store.Spares (Key.mode channelId) →
    s.Retells userId channelId mode w' (w.store.modeOf channelId ≠ mode)

/-- A change has been written over another mode and published, if the platform took the event, and
nobody who asks again is told of it. -/
structure Switched (s : Service) (climate : Climate) (userId channelId : String) (mode : Mode)
    (w : World) (calls : List Exchange) (w' : World) : Prop where
  events : ∃ h, w.host.Turns climate h ∧
    w'.host.events = w.host.events ++ eventsOf channelId mode h
  writes : calls.filterMap Exchange.write? = [(Key.mode channelId, some mode.encode)]
  value : w.store.Spares (Key.mode channelId) → w.store.modeOf channelId ≠ mode ∧
    w'.store.get? (Key.mode channelId) = some mode.encode
  again : w.store.Spares (Key.mode channelId) → s.Retells userId channelId mode w' False

/-- A change that fails has done nothing if its error comes before the write, and has been made
otherwise. -/
def Failed (s : Service) (climate : Climate) (userId channelId : String) (mode : Mode)
    (e : ServiceError) (w : World) (calls : List Exchange) (w' : World) : Prop :=
  if e.precedesWrite then s.Unswitched climate userId channelId mode w calls w'
  else s.Switched climate userId channelId mode w calls w'

/-- What a change that succeeds has told, published and announced. -/
theorem runAmid_changeMode_ok {told : Bool}
    (h : ((s.changeMode userId channelId mode).run.runAmid weather limit w).1
      = .finished (.ok told)) :
    (w.store.Spares (Key.mode channelId) →
      (told = true ↔ w.store.modeOf channelId ≠ mode)) ∧
    s.Tells weather.climate userId channelId mode w.host
      ((s.changeMode userId channelId mode).run.runAmid weather limit w).2 told := by
  have hends : (s.changeMode userId channelId mode).run.Ensures weather.climate limit _ _
      (.start w) := s.ensures_changeMode_ends userId channelId mode
  obtain ⟨waited, hend⟩ := (hends.of_runAmid fun _ => id).1 _ h
  cases told with
  | true =>
    exact ⟨fun hw => iff_of_true rfl (hend.other hw), hasAnnounced_of_changed h⟩
  | false =>
    obtain ⟨hdoes, hposts, hsame⟩ := hend
    have hevents := World.isLog_events.runAmid weather limit
      (s.changeMode userId channelId mode).run w
    have hnone : ((s.changeMode userId channelId mode).run.transcriptAmid weather limit
      w).filterMap Exchange.event? = [] := hdoes.events
    rw [hnone, List.append_nil] at hevents
    exact ⟨fun hw => iff_of_false Bool.false_ne_true (not_not_intro (hsame hw)), hevents, hposts⟩

/-- What a change that is asked for again tells. -/
theorem retells (s : Service) (userId channelId : String) (mode : Mode) (w : World) :
    s.Retells userId channelId mode w (w.store.modeOf channelId ≠ mode) := by
  intro later weather limit told hlater hsame h
  obtain ⟨htold, htells⟩ := runAmid_changeMode_ok h
  have hmode : later.store.modeOf channelId = w.store.modeOf channelId :=
    congrArg Mode.current hsame
  exact ⟨by rw [htold hlater, hmode], htells⟩

/-- A run of a change without a write, on a platform of which at most the conditions changed. -/
theorem unswitched_of_writes
    (hwrites : ((s.changeMode userId channelId mode).run.transcriptAmid weather limit w).filterMap
      Exchange.write? = [])
    (hhost : w.host.Turns weather.climate
      ((s.changeMode userId channelId mode).run.runAmid weather limit w).2.host) :
    s.Unswitched weather.climate userId channelId mode w
      ((s.changeMode userId channelId mode).run.transcriptAmid weather limit w)
      ((s.changeMode userId channelId mode).run.runAmid weather limit w).2 := by
  have hvalue (hw : w.store.Spares (Key.mode channelId)) :
      ((s.changeMode userId channelId mode).run.runAmid weather limit w).2.store.get?
        (Key.mode channelId) = w.store.get? (Key.mode channelId) := by
    rw [get?_runAmid hw, Exchange.lastEffect?_of_writes hwrites]
    rfl
  refine ⟨hhost, hwrites, hvalue, fun hw => ?_⟩
  have hmode := congrArg Mode.current (hvalue hw)
  rw [← Store.modeOf, ← Store.modeOf] at hmode
  rw [← hmode]
  exact s.retells userId channelId mode _

/-- A run of a change that has been written. -/
theorem switched_of_switches {t' : Moment}
    (h : Switches weather.climate channelId mode (.start w) t')
    (hmade : t'.made = (s.changeMode userId channelId mode).run.transcriptAmid weather limit w) :
    s.Switched weather.climate userId channelId mode w
      ((s.changeMode userId channelId mode).run.transcriptAmid weather limit w)
      ((s.changeMode userId channelId mode).run.runAmid weather limit w).2 := by
  obtain ⟨⟨host, hturns, hwrites, hevents⟩, hother⟩ := h
  rw [Moment.writes, hmade] at hwrites
  rw [Moment.events, hmade] at hevents
  have hvalue (hw : w.store.Spares (Key.mode channelId)) :
      ((s.changeMode userId channelId mode).run.runAmid weather limit w).2.store.get?
        (Key.mode channelId) = some mode.encode := by
    rw [get?_runAmid hw, Exchange.lastEffect?_of_write hwrites]
    rfl
  refine ⟨⟨host, hturns, ?_⟩, hwrites, fun hw => ⟨hother hw, hvalue hw⟩, fun hw => ?_⟩
  · rw [World.isLog_events.runAmid, hevents]
    rfl
  · have hmode : ((s.changeMode userId channelId mode).run.runAmid weather limit
        w).2.store.modeOf channelId = mode := by
      rw [Store.modeOf, hvalue hw, Mode.current_encode]
    have hagain := s.retells userId channelId mode
      ((s.changeMode userId channelId mode).run.runAmid weather limit w).2
    rwa [hmode, ne_self_iff_false] at hagain

/-- **Changes that fail.** -/
theorem failed_changeMode (s : Service) (userId channelId : String) (mode : Mode)
    (weather : Weather) (limit : Option Duration) (w : World) :
    (∀ e, ((s.changeMode userId channelId mode).run.runAmid weather limit w).1
        = .finished (.error e) →
      s.Failed weather.climate userId channelId mode e w
        ((s.changeMode userId channelId mode).run.transcriptAmid weather limit w)
        ((s.changeMode userId channelId mode).run.runAmid weather limit w).2) ∧
    (((s.changeMode userId channelId mode).run.runAmid weather limit w).1.value? = none →
      s.Unswitched weather.climate userId channelId mode w
        ((s.changeMode userId channelId mode).run.transcriptAmid weather limit w)
        ((s.changeMode userId channelId mode).run.runAmid weather limit w).2 ∨
      s.Switched weather.climate userId channelId mode w
        ((s.changeMode userId channelId mode).run.transcriptAmid weather limit w)
        ((s.changeMode userId channelId mode).run.runAmid weather limit w).2) := by
  have hends : (s.changeMode userId channelId mode).run.Ensures weather.climate limit _ _
      (.start w) := s.ensures_changeMode_ends userId channelId mode
  obtain ⟨hfinished, hcut⟩ := hends.of_runAmid fun _ => id
  constructor
  · intro e h
    obtain ⟨waited, hend⟩ := hfinished _ h
    rw [ChangeEnds] at hend
    rw [Failed]
    split at hend
    · rename_i hearly
      rw [if_pos hearly]
      exact unswitched_of_writes hend.1.writes hend.2
    · rename_i hlate
      rw [if_neg hlate]
      exact switched_of_switches hend rfl
  · intro h
    obtain ⟨waited, w', hend, hw'⟩ := hcut h
    refine hend.imp (fun hunstored => ?_) fun hswitches => switched_of_switches hswitches rfl
    refine unswitched_of_writes hunstored.1.writes ?_
    rw [hw']
    exact hunstored.2

end Service
end SealedChannel
