import SealedChannel.Proofs.Json.Text
import SealedChannel.Proofs.Session.PostFilter
import SealedChannel.Proofs.Storage.ModeRace

/-!
# What clients are told about modes

A client that follows the events about a channel knows its mode at every moment.  However the rest
of a request fails or is cut off, the event of a change is published if and only if the change has
been written, as long as the platform takes events at all.

## What is here

* `Event.modeChange?`, `Event.modeOn?` — what a client reads in an event.
* `Service.ensures_changeMode` — a change is written and published, or neither.
* `Session.newEvents`, `Session.published` — the events that a session has added to those of the
  platform.
* `Session.announced_modes` — what a session tells about a channel.
-/

set_option autoImplicit false
namespace SealedChannel

/-! ## Events about modes -/

namespace Event

/-- The channel and the mode that a client reads in an event about a mode. -/
def modeChange? (event : Event) : Option (String × Mode) :=
  if event.name = "channelStateChanged" then do
    let r ← Json.Record.ofJson? ["chanID", "method"] event.payload
    let channelId ← r.required "chanID" Json.text?
    let name ← r.required "method" Json.text?
    some (channelId, Mode.ofName name)
  else none

/-- The mode of a channel that a client reads in an event. -/
def modeOn? (channelId : String) (event : Event) : Option Mode :=
  match event.modeChange? with
  | some (other, mode) => if other = channelId then some mode else none
  | none => none

/-- The event of a mode is read as it was meant. -/
@[simp]
theorem modeChange?_modeEvent (channelId : String) (mode : Mode) :
    (Service.modeEvent channelId mode).modeChange? = some (channelId, mode) := by
  have hmembers : Json.Record.ofJson? ["chanID", "method"]
      (Service.modeEvent channelId mode).payload = some
        ⟨false, [("chanID", .ofText channelId), ("method", .ofText mode.name)]⟩ := by
    rw [Service.modeEvent, Json.Record.ofJson?_record]
    rfl
  have hname : (Service.modeEvent channelId mode).name = "channelStateChanged" := rfl
  rw [modeChange?, if_pos hname, hmembers]
  change (Json.text? (.ofText channelId)).bind (fun channelId =>
    (Json.text? (.ofText mode.name)).bind fun name => some (channelId, Mode.ofName name)) = _
  rw [Json.text?_ofText, Json.text?_ofText, Option.bind_some, Option.bind_some, Mode.ofName_name]

@[simp]
theorem modeOn?_modeEvent (channelId other : String) (mode : Mode) :
    (Service.modeEvent other mode).modeOn? channelId =
      if other = channelId then some mode else none := by
  rw [modeOn?, modeChange?_modeEvent]

/-- The event of a key pair tells nothing about modes. -/
@[simp]
theorem modeOn?_newKeyEvent (channelId userId : String) :
    (Service.newKeyEvent userId).modeOn? channelId = none :=
  rfl

end Event

/-! ## Platforms that take events -/

/-- Under all conditions of the climate, the platform takes events. -/
def Climate.TakesEvents (climate : Climate) : Prop :=
  ∀ c, climate c → c.faults.lookup .publishEvent = none

theorem Climate.TakesEvents.of_turns {climate : Climate} {h h' : Host}
    (hclimate : climate.TakesEvents) (hturns : h.Turns climate h')
    (hpublish : h.faults.lookup .publishEvent = none) :
    h'.faults.lookup .publishEvent = none := by
  rcases hturns with rfl | ⟨c, hc, rfl⟩
  · exact hpublish
  · exact hclimate c hc

/-- No call changes what goes wrong with calls. -/
theorem World.faults_react {w w' : World} {c : Call} {answer : c.Answer}
    (hreact : w.react c = .answered answer w') : w'.host.faults = w.host.faults := by
  cases c with
  | host call =>
    rw [World.react] at hreact
    split at hreact
    · cases hreact
    · rename_i hcall
      cases hreact
      exact (Host.call_adds hcall).faults
  | _ => rw [World.host_react (by rintro _ ⟨⟩) hreact]

/-- A platform that takes events still takes them after a run in weather in which it does. -/
theorem Program.takesEvents_runAmid {α : Type} {weather : Weather}
    (hweather : weather.climate.TakesEvents) (limit : Option Duration) (p : Program α) {w : World}
    (hpublish : w.host.faults.lookup .publishEvent = none) :
    (p.runAmid weather limit w).2.host.faults.lookup .publishEvent = none := by
  have hupheld : Contract.lax.Upheld fun w => w.host.faults.lookup .publishEvent = none := by
    refine ⟨fun _ h => h, fun {w c} h _ => ?_, fun h _ hreact => ⟨trivial, ?_⟩⟩
    · cases c <;> exact h
    · rw [World.faults_react hreact, h]
  have hends : p.Ensures weather.climate limit _ _ (.start w) :=
    (Operation.keeps_lax (fun _ => trivial) p).ensures hupheld
      (fun h hturns => hweather.of_turns hturns.host h) hpublish
  exact (hends.imp (fun _ _ h => h.2.1) fun _ h => h.1).at_end
    (fun _ w => w.host.faults.lookup .publishEvent = none) (fun _ => id) fun _ h => h

/-! ## A change and its event -/

namespace Service

open Program

variable {climate : Climate} {limit : Option Duration} {t : Moment} {channelId : String}
  {mode : Mode}

/-- Between two moments a change was written and published, or neither. -/
def Announced (channelId : String) (mode : Mode) (t t' : Moment) : Prop :=
  (t'.events = t.events ∧ t'.world.store.modeOf channelId = t.world.store.modeOf channelId) ∨
    (t'.events = t.events ++ [modeEvent channelId mode] ∧
      t.world.store.modeOf channelId ≠ mode ∧ t'.world.store.modeOf channelId = mode)

/-- What follows a change neither publishes anything about it nor writes. -/
theorem ensures_quiet {α : Type} {p : Program α} (hw : t.world.store.Spares (Key.mode channelId))
    (hp : p.Within ⟨fun _ => True, fun _ _ => False, fun _ => False⟩) :
    p.Ensures climate limit
      (fun _ t' => t'.events = t.events ∧
        t'.world.store.modeOf channelId = t.world.store.modeOf channelId)
      (fun t' => t'.events = t.events ∧
        t'.world.store.modeOf channelId = t.world.store.modeOf channelId) t := by
  have hmode {t' : Moment} (h : Reach.Preserves ⟨fun _ => True, fun _ _ => False, fun _ => False⟩
      t.world.store t'.world) :
      t'.world.store.modeOf channelId = t.world.store.modeOf channelId :=
    congrArg Mode.current ((h _ hw).2 fun _ => id)
  exact (hp.ensures_silent fun _ => id).imp (fun _ _ h => ⟨h.1, hmode h.2⟩)
    fun _ h => ⟨h.1, hmode h.2⟩

/-- A platform that takes events publishes that of a mode that was switched, whatever becomes of
the announcement. -/
theorem ensures_announceMode (s : Service) (userId : String) (hclimate : climate.TakesEvents)
    (hw : t.world.store.Spares (Key.mode channelId)) (hin : isOver limit t.waited = false)
    (hpublish : t.world.host.faults.lookup .publishEvent = none) :
    (s.announceMode userId channelId mode true).run.Ensures climate limit
      (fun _ t' => t'.events = t.events ++ [modeEvent channelId mode] ∧
        t'.world.store.modeOf channelId = t.world.store.modeOf channelId)
      (fun t' => t'.events = t.events ++ [modeEvent channelId mode] ∧
        t'.world.store.modeOf channelId = t.world.store.modeOf channelId) t := by
  have hcall {w : World} (hturns : t.world.Turns climate w) :
      w.host.call (.publishEvent (modeEvent channelId mode)) =
        some (w.host.perform (.publishEvent (modeEvent channelId mode))) := by
    rw [Host.call, HostCall.method, hclimate.of_turns hturns.host hpublish]
  rw [announceMode, if_pos rfl, ensures_run_bind, ensures_run_attempt]
  refine .run_host (fun w hturns h => ?_) fun w answer host hturns _ hanswer => ?_
  -- the event is not lost to the deadline, since after the write there is still time left
  · rw [hin, hcall hturns] at h
    simp at h
  · have hok : answer = .ok () := by
      rw [hcall hturns] at hanswer
      exact (congrArg Prod.fst (Option.some.inj hanswer)).symm
    subst hok
    let told : Moment := (t.turned w).answered (.host (.publishEvent (modeEvent channelId mode)))
      (.ok ()) { w with host }
    have htold : told.events = t.events ++ [modeEvent channelId mode] :=
      Moment.events_answered (t.turned w) _ _ _
    have hmode : told.world.store.modeOf channelId = t.world.store.modeOf channelId :=
      congrArg Mode.current (hturns.get? (Key.mode channelId))
    have hrest := s.within_announcementPost
      (r := ⟨fun _ => True, fun _ _ => False, fun _ => False⟩) (fun _ => trivial) userId channelId
      mode
    refine (ensures_quiet (t := told) (hturns.spares hw) hrest).imp (fun _ t' h => ?_)
      fun t' h => ?_
    · exact ⟨h.1.trans htold, h.2.trans hmode⟩
    · exact ⟨h.1.trans htold, h.2.trans hmode⟩

/-- **A change and its event.**  On a platform that takes events, a change of a mode on behalf of a
member is written and published, or neither, whether or not it comes to its end. -/
theorem ensures_changeMode (s : Service) (userId : String) (hclimate : climate.TakesEvents)
    (hw : t.world.store.Spares (Key.mode channelId))
    (hpublish : t.world.host.faults.lookup .publishEvent = none) :
    (s.changeMode userId channelId mode).run.Ensures climate limit
      (fun _ t' => Announced channelId mode t t') (fun t' => Announced channelId mode t t') t := by
  let r : Reach := ⟨fun _ => True, fun _ _ => True, fun _ => False⟩
  have hsilent : (switchMode s.modes userId channelId mode).run.Within r :=
    within_switchMode s.modes userId trivial trivial
  rw [changeMode_eq, ensures_run_bind]
  refine ((ensures_switchMode s.modes userId mode hw).and
    (hsilent.ensures_silent fun _ => id)).imp (fun result t' h => ?_) fun t' h => ?_
  · obtain ⟨hresult, hevents, hpreserves⟩ := h
    have hw' : t'.world.store.Spares (Key.mode channelId) := (hpreserves _ hw).1
    cases result with
    | error e => exact .inl ⟨hevents, congrArg Mode.current hresult⟩
    | ok changed =>
      obtain ⟨hin, hhost, hdecides⟩ := hresult
      cases changed with
      | true =>
        have hswitched := hdecides.modeOf
        refine (s.ensures_announceMode userId hclimate hw' hin
          (hclimate.of_turns hhost hpublish)).imp (fun _ t'' h => ?_) fun t'' h => ?_
        · exact .inr ⟨by rw [h.1, hevents], hdecides.1, h.2.trans hswitched⟩
        · exact .inr ⟨by rw [h.1, hevents], hdecides.1, h.2.trans hswitched⟩
      | false =>
        have hkept : t'.world.store.modeOf channelId = t.world.store.modeOf channelId :=
          congrArg Mode.current hdecides.2
        have hnotice : (s.announceMode userId channelId mode false).run.Within
            ⟨fun _ => True, fun _ _ => False, fun _ => False⟩ :=
          s.within_announceMode userId (fun _ => trivial) fun h => by cases h
        refine (ensures_quiet hw' hnotice).imp (fun _ t'' h => ?_) fun t'' h => ?_
        · exact .inl ⟨h.1.trans hevents, h.2.trans hkept⟩
        · exact .inl ⟨h.1.trans hevents, h.2.trans hkept⟩
  · exact .inl ⟨h.2.1, congrArg Mode.current h.1⟩

end Service

/-! ## Sessions -/

namespace Session

open Program

/-- The events that a step has added to those of the platform. -/
def newEvents (s : Session) : Step → List Event
  | .demand weather d => (s.meet weather d).world.host.events.drop s.world.host.events.length
  | .change _ => []

/-- The events that a session has added to those of the platform, in order. -/
def published (s : Session) (steps : List Step) : List Event :=
  (s.history (fun s event => some (s.newEvents event)) steps).flatten

/-- A step leaves the modes of a channel to the service, and lets the platform take events. -/
def Step.LeavesTo (channelId : String) : Step → Prop
  | .demand weather d => (∀ modes mode, d ≠ .setMode modes channelId mode) ∧
      weather.climate.TakesEvents
  | .change c => c.Spares (Key.mode channelId) ∧
      ∀ host, c = .host host → host.faults.lookup .publishEvent = none

variable {s : Session} {weather : Weather} {d : Demand} {channelId : String}

/-- The events that a demand has added are those that its calls have published. -/
theorem newEvents_demand (s : Session) (weather : Weather) (d : Demand) :
    s.newEvents (.demand weather d) = (s.exchanges weather d).filterMap Exchange.event? := by
  have hlog := World.isLog_events.runAmid weather d.limit? (d.program s.service) s.world
  rw [newEvents, world_meet, hlog, List.drop_left]
  rfl

/-- A demand has published events of its reach. -/
theorem mayPublish_of_mem {event : Event} (h : event ∈ s.newEvents (.demand weather d)) :
    d.mayPublish event := by
  rw [newEvents_demand] at h
  obtain ⟨e, he, hevent⟩ := List.mem_filterMap.1 h
  have hallows : ∀ e ∈ (d.program s.service).transcriptAmid weather d.limit? s.world,
      d.reach.Covers e.call :=
    ((d.within_program s.service).keeps.runAmid fun _ _ _ _ => trivial).1
  exact (hallows e he).publishes event (Exchange.call_of_event? hevent)

/-- A demand that asks for a change of a mode has written and published it, or neither. -/
theorem announced_of_switching {userId : String} {mode : Mode}
    (hweather : weather.climate.TakesEvents)
    (hw : s.world.store.Spares (Key.mode channelId))
    (hpublish : s.world.host.faults.lookup .publishEvent = none)
    (h : d.switching? = some (userId, channelId, mode)) :
    (s.newEvents (.demand weather d) = [] ∧
      (s.meet weather d).world.store.modeOf channelId = s.world.store.modeOf channelId) ∨
    (s.newEvents (.demand weather d) = [Service.modeEvent channelId mode] ∧
      s.world.store.modeOf channelId ≠ mode ∧
        (s.meet weather d).world.store.modeOf channelId = mode) := by
  obtain ⟨f, hprogram⟩ := d.program_of_switching s.service h
  have hends : (s.service.changeMode userId channelId mode).run.Ensures weather.climate d.limit? _ _
      (.start s.world) := s.service.ensures_changeMode userId hweather hw hpublish
  have hannounced := hends.at_end
    (fun made w => Service.Announced channelId mode (.start s.world) ⟨made, ⟨0⟩, w⟩)
    (fun _ => id) fun _ h => h
  rw [newEvents_demand, exchanges, world_meet, hprogram, transcriptAmid_map, runAmid_map]
  exact hannounced

/-- What a step tells about the mode of a channel: nothing, if the mode stays, and otherwise the new
mode, which is another one. -/
theorem told_step {event : Step} (hw : s.world.store.Spares (Key.mode channelId))
    (hpublish : s.world.host.faults.lookup .publishEvent = none)
    (hevent : event.LeavesTo channelId) :
    ((s.newEvents event).filterMap (Event.modeOn? channelId) = [] ∧
      (s.step event).world.store.modeOf channelId = s.world.store.modeOf channelId) ∨
    ∃ mode, (s.newEvents event).filterMap (Event.modeOn? channelId) = [mode] ∧
      s.world.store.modeOf channelId ≠ mode ∧
        (s.step event).world.store.modeOf channelId = mode := by
  cases event with
  | change change => exact .inl ⟨rfl, congrArg Mode.current (World.get?_change hevent.1)⟩
  | demand weather d =>
    by_cases hswitching : ∃ userId mode, d.switching? = some (userId, channelId, mode)
    · obtain ⟨userId, mode, hswitching⟩ := hswitching
      rcases announced_of_switching hevent.2 hw hpublish hswitching with
        ⟨hevents, hmode⟩ | ⟨hevents, hother, hmode⟩
      · exact .inl ⟨by rw [hevents]; rfl, hmode⟩
      · exact .inr ⟨mode, by simp [hevents], hother, hmode⟩
    · -- events and writes of other demands are about other channels
      refine .inl ⟨?_, congrArg Mode.current ?_⟩
      · refine List.filterMap_eq_nil_iff.2 fun event hmem => ?_
        rcases mayPublish_of_mem hmem with ⟨userId, content, -, rfl⟩ |
          ⟨userId, other, mode, hother, rfl⟩
        · exact Event.modeOn?_newKeyEvent channelId userId
        · have hne : other ≠ channelId := by
            rintro rfl
            exact hswitching ⟨userId, mode, hother⟩
          rw [Event.modeOn?_modeEvent, if_neg hne]
      · rw [step, world_meet]
        refine Decidable.byContradiction fun hne => ?_
        rcases Demand.of_mayWrite_mode ((d.writes_program s.service).of_get?_runAmid_ne hw hne) with
          hswitching' | ⟨modes, mode, rfl⟩
        · exact hswitching hswitching'
        · exact hevent.1 modes mode rfl

/-- The platform still takes events after a step. -/
theorem takesEvents_step {event : Step}
    (hpublish : s.world.host.faults.lookup .publishEvent = none)
    (hevent : event.LeavesTo channelId) :
    (s.step event).world.host.faults.lookup .publishEvent = none := by
  cases event with
  | demand weather d =>
    rw [step, world_meet]
    exact takesEvents_runAmid hevent.2 _ _ hpublish
  | change change =>
    cases change with
    | host host => exact hevent.2 host rfl
    | _ => exact hpublish

/-- **What clients are told about modes.**  In a session in which nobody else writes the mode of a
channel and the platform takes events, the modes in the events about the channel alternate,
beginning with the one that the channel did not have at first, and at every moment the channel has
the mode of the last event, or the one that it had at first.  Every event about a mode names its
channel and goes to the members of that channel only. -/
theorem announced_modes {steps : List Step} (hw : s.world.store.Spares (Key.mode channelId))
    (hpublish : s.world.host.faults.lookup .publishEvent = none)
    (hsteps : ∀ event ∈ steps, event.LeavesTo channelId) :
    ModeRace.Alternate (s.world.store.modeOf channelId)
      ((s.published steps).filterMap (Event.modeOn? channelId))
      ((s.run steps).world.store.modeOf channelId) ∧
    ∀ event ∈ s.published steps, event.name = "channelStateChanged" →
      ∃ other mode, event.modeChange? = some (other, mode) ∧
        event.audience = .toChannel other := by
  induction steps generalizing s with
  | nil => exact ⟨⟨.singleton _, rfl⟩, fun event hmem => by cases hmem⟩
  | cons first rest ih =>
    obtain ⟨hfirst, hrest⟩ := List.forall_mem_cons.1 hsteps
    obtain ⟨halternate, haudience⟩ :=
      ih (spares_step hw first) (takesEvents_step hpublish hfirst) hrest
    have hpublished : s.published (first :: rest) =
        s.newEvents first ++ (s.step first).published rest := rfl
    constructor
    · rw [hpublished, List.filterMap_append]
      rcases told_step hw hpublish hfirst with ⟨htold, hmode⟩ | ⟨mode, htold, hother, hmode⟩
      · rw [htold, ← hmode]
        exact halternate
      · rw [htold]
        rw [hmode] at halternate
        exact halternate.cons hother
    · intro event hmem hname
      rw [hpublished, List.mem_append] at hmem
      rcases hmem with hmem | hmem
      · cases first with
        | change c => cases hmem
        | demand weather d =>
          rcases mayPublish_of_mem hmem with ⟨userId, content, -, rfl⟩ |
            ⟨userId, other, mode, -, rfl⟩
          · exact absurd (show "newPubkey" = "channelStateChanged" from hname) (by decide)
          · exact ⟨other, mode, Event.modeChange?_modeEvent other mode, rfl⟩
      · exact haudience event hmem hname

/-- The mode changes twice: first the store fails once the change is published, so that no key can
be read for the announcement, and then the platform refuses the post.  In the end the store takes no
more writes, and the mode stays. -/
def announcedSession : List Step :=
  [.demand [none, none, none, none, some ⟨⟨0⟩, true, true, true, false, true, []⟩]
      (.changeMode "u" "c" .p2p),
    .change (.faults ⟨0⟩ false false false),
    .demand [] (.answer
      ⟨"POST", "/api/v1/channel/encryption_method?chanID=c&method=none", some [0x75], []⟩),
    .change (.write ⟨"x", [1]⟩), .change (.faults ⟨0⟩ false true false),
    .demand [] (.changeMode "u" "c" .p2p)]

theorem announced_modes_of_announcedSession :
    (quietWorld.store.Spares (Key.mode "c") ∧
      quietWorld.host.faults.lookup .publishEvent = none ∧
      ∀ event ∈ announcedSession, event.LeavesTo "c") ∧
    ((mk (.new .default true) quietWorld).published announcedSession).filterMap
      (Event.modeOn? "c") = [.p2p, .plain] ∧
    ((mk (.new .default true) quietWorld).run announcedSession).world.store.modeOf "c" =
      .plain := by
  have hw : quietWorld.store.Spares (Key.mode "c") := Store.spares_new false true _
  have hpublish : quietWorld.host.faults.lookup .publishEvent = none := rfl
  have hsteps : ∀ event ∈ announcedSession, event.LeavesTo "c" := by
    have hkey : "x" ≠ Key.mode "c" := by decide
    simpa [announcedSession, Step.LeavesTo, Change.Spares, Climate.TakesEvents, Weather.climate]
      using hkey
  have htold : ((mk (.new .default true) quietWorld).published announcedSession).filterMap
      (Event.modeOn? "c") = [.p2p, .plain] := by
    decide +kernel
  have hmodes := (announced_modes (s := mk (.new .default true) quietWorld) hw hpublish hsteps).1
  rw [htold] at hmodes
  exact ⟨⟨hw, hpublish, hsteps⟩, htold, hmodes.2⟩

end Session

end SealedChannel
