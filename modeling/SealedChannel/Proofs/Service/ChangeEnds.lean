import SealedChannel.Proofs.Program.Deeds
import SealedChannel.Proofs.Session.Modes

/-!
# How a change of a mode ends

A change of a mode makes one write at most, and what it does before is of no effect.  What fails
after the write, such as the announcement, takes nothing back: the new mode is there, and it has
been published if the platform took the event.

## What is here

* `Modes.ensures_setIfDifferent_stored` — a change makes one write at most.
* `ServiceError.precedesWrite` — the errors of a change that come before its write.
* `Service.throws_changeMode` — the errors of a change, for whatever is said of them.
* `Service.SwitchEnds`, `Service.ChangeEnds` — what is known when a switch or a whole change has
  come to its end.
* `Service.ensures_changeMode_ends` — what every change does, whatever the climate.
-/

set_option autoImplicit false
namespace SealedChannel

/-! ## The write of a change -/

namespace Modes

open Program

variable {climate : Climate} {limit : Option Duration} {m : Modes} {channelId : String}
  {mode : Mode} {ε ε' : Type} {t₀ t : Moment}

/-- The writes of a change, by its result. -/
def writesOf (channelId : String) (mode : Mode) : Except ε Bool → List (String × Option Bytes)
  | .ok true => [(Key.mode channelId, some mode.encode)]
  | _ => []

theorem writesOf_mapError (f : ε → ε') (result : Except ε Bool) :
    writesOf channelId mode (result.mapError f) = writesOf channelId mode result := by
  rcases result with e | _ | _ <;> rfl

/-- A change that has come to its end has made its write, if it tells so, and done nothing else.  Of
the platform at most the conditions have changed. -/
def Stored (climate : Climate) (channelId : String) (mode : Mode) (t : Moment)
    (result : Except ε Bool) (t' : Moment) : Prop :=
  t.Does (writesOf channelId mode result) [] t' ∧ t.world.host.Turns climate t'.world.host

/-- Up to now, a change has done nothing. -/
def Unstored (climate : Climate) (t t' : Moment) : Prop :=
  t.Does [] [] t' ∧ t.world.host.Turns climate t'.world.host

section Calls

/-- At first nothing has been done, under whatever conditions. -/
theorem unstored_turned {w : World} (hw : t.world.Turns climate w) :
    Unstored climate t (t.turned w) :=
  ⟨t.does_turned w, hw.host⟩

theorem Unstored.turned {w : World} (h : Unstored climate t₀ t) (hw : t.world.Turns climate w) :
    Unstored climate t₀ (t.turned w) :=
  ⟨h.1.trans (t.does_turned w), h.2.trans hw.host⟩

variable (h : Unstored climate t₀ t) {l : Duration} {c : StoreCall}
include h

theorem Unstored.cut : Unstored climate t₀ (t.cutIn (.store l c) (t.world.begin (.store l c))) :=
  ⟨h.1.trans (t.does_cutIn _ _), h.2⟩

theorem Unstored.answered {answer : Except StoreError c.Answer} {store : Store}
    (hnone : Exchange.write? ⟨.store l c, some answer⟩ = none) :
    Unstored climate t₀ (t.answered (.store l c) answer { t.world with store }) :=
  ⟨h.1.trans (Moment.does_nothing hnone rfl), h.2⟩

theorem Unstored.stored {answer : Except StoreError c.Answer} {store : Store}
    (hsome : Exchange.write? ⟨.store l c, some answer⟩
      = some (Key.mode channelId, some mode.encode)) :
    Stored climate channelId mode t₀ (.ok true : Except StoreError Bool)
      (t.answered (.store l c) answer { t.world with store }) := by
  have hdoes := t.does_answered (.store l c) answer { t.world with store }
  rw [hsome] at hdoes
  exact ⟨h.1.trans hdoes, h.2⟩

end Calls

/-- A read, and then what is to be done if the mode is another one. -/
theorem ensures_read_stored {next : Option Bytes → Operation StoreError Bool}
    (h : Unstored climate t₀ t)
    (hnext : ∀ raw t', Unstored climate t₀ t' → (next raw).run.Ensures climate limit
      (Stored climate channelId mode t₀) (Unstored climate t₀) t') :
    (do
      let raw : Option Bytes ← Operation.store m.limit (.get (Key.mode channelId))
      if Mode.current raw = mode then return false
      next raw : Operation StoreError Bool).run.Ensures climate limit
        (Stored climate channelId mode t₀) (Unstored climate t₀) t := by
  refine ensures_run_bind.2 (.run_store (fun w hw _ => (h.turned hw).cut)
    fun w answer store hw _ _ => ?_)
  have hturned := h.turned hw
  cases answer with
  | error e => exact hturned.answered rfl
  | ok raw =>
    dsimp only
    split
    · exact hturned.answered rfl
    · exact hnext raw _ (hturned.answered rfl)

theorem ensures_exchange_stored (h : Unstored climate t₀ t) (attempts : Nat) :
    (m.exchange channelId mode attempts).run.Ensures climate limit
      (Stored climate channelId mode t₀) (Unstored climate t₀) t := by
  induction attempts generalizing t with
  | zero => exact h
  | succ attempts ih =>
    refine ensures_read_stored h fun raw t' h' => ?_
    refine ensures_run_bind.2 (.run_store (fun w hw _ => (h'.turned hw).cut)
      fun w answer store hw _ _ => ?_)
    have hturned := h'.turned hw
    cases answer with
    | error e => exact hturned.answered rfl
    | ok swapped =>
      cases swapped with
      | true => exact hturned.stored rfl
      | false => exact ih (hturned.answered rfl)

theorem ensures_replace_stored (h : Unstored climate t₀ t) :
    (m.replace channelId mode).run.Ensures climate limit (Stored climate channelId mode t₀)
      (Unstored climate t₀) t := by
  refine ensures_read_stored h fun raw t' h' => ?_
  refine ensures_run_bind.2 (.run_store (fun w hw _ => (h'.turned hw).cut)
    fun w answer store hw _ _ => ?_)
  have hturned := h'.turned hw
  cases answer with
  | error e => exact hturned.answered rfl
  | ok done => exact hturned.stored rfl

/-- A change makes one write at most, whoever else writes. -/
theorem ensures_setIfDifferent_stored (m : Modes) (channelId : String) (mode : Mode) :
    (m.setIfDifferent channelId mode).run.Ensures climate limit (Stored climate channelId mode t)
      (Unstored climate t) t := by
  rw [setIfDifferent, ExceptT.run_mk]
  refine .locked (fun w hw _ => ?_) fun w hw hin => ?_
  · have hturned := unstored_turned hw
    exact ⟨hturned.1.trans ((t.turned w).does_cutIn _ _), hturned.2⟩
  let locked : Moment := (t.turned w).answered (.acquire (m.lockOf channelId)) ()
    { w with held := m.lockOf channelId :: w.held }
  have hlocked : Unstored climate t locked := ⟨Moment.does_nothing rfl rfl, hw.host⟩
  have hchange : (if m.atomic then (m.exchange channelId mode rounds).run
      else (m.replace channelId mode).run).Ensures climate limit
        (Stored climate channelId mode t) (Unstored climate t) locked := by
    split
    · exact ensures_exchange_stored hlocked rounds
    · exact ensures_replace_stored hlocked
  refine (hchange.and (ensures_inTime _ hin)).imp
    (fun result t' h => ⟨h.2, fun w' hw' => ⟨?_, h.1.2.trans hw'.host⟩⟩) fun t' h => h.1
  have hrelease : t'.Does [] [] ((t'.turned w').answered (.release (m.lockOf channelId)) ()
      { w' with held := w'.held.erase (m.lockOf channelId) }) :=
    Moment.does_nothing rfl rfl
  simpa using h.1.1.trans hrelease

end Modes

/-! ## Errors -/

/-- Whether an error of a change comes before its write. -/
def ServiceError.precedesWrite : ServiceError → Bool
  | .notChannelMember _ _ _ => true
  | .store _ => true
  | _ => false

namespace Service

open Program Operation

variable {s : Service} {userId channelId : String} {mode : Mode} {climate : Climate}
  {limit : Option Duration} {t : Moment}

section Errors

variable {thrown : ServiceError → Prop}

/-- A switch fails because of the user or of the store. -/
theorem throws_switchMode (modes : Modes) (mode : Mode)
    (hmember : ∀ cause, thrown (.notChannelMember userId channelId cause))
    (hstore : ∀ cause, thrown (.store cause)) :
    (switchMode modes userId channelId mode).Throws thrown := by
  refine .bind (.bind (throws_wrap hmember _) fun member => ?_) fun _ => throws_wrap hstore _
  rintro e ⟨⟩

theorem throws_mentions (hhost : ∀ cause, thrown (.host cause)) (userIds : List String) :
    (mentions userIds).Throws thrown := by
  induction userIds with
  | nil => rintro e ⟨⟩
  | cons userId rest ih =>
    refine .bind (throws_wrap hhost _) fun user => .bind ih fun others => ?_
    rintro e ⟨⟩

variable (hhost : ∀ cause, thrown (.host cause)) (hkeys : ∀ cause, thrown (.publicKey cause))
include hhost hkeys

theorem throws_announcement (s : Service) (userId channelId : String) (mode : Mode) :
    (s.announcement userId channelId mode).Throws thrown := by
  refine .bind (throws_wrap hhost _) fun user => ?_
  cases mode with
  | plain => rintro e ⟨⟩
  | p2p =>
    have hwarning : (s.missingKeysWarning channelId).Throws thrown := by
      refine .bind (throws_wrap hkeys _) fun missing => ?_
      split
      · rintro e ⟨⟩
      · refine .bind (throws_mentions hhost missing) fun mentioned => ?_
        rintro e ⟨⟩
    refine .bind hwarning fun warning => ?_
    rintro e ⟨⟩

/-- Telling others of a mode fails because of the platform or of the key of a member. -/
theorem throws_announceMode (s : Service) (userId channelId : String) (mode : Mode)
    (changed : Bool) : (s.announceMode userId channelId mode changed).Throws thrown := by
  cases changed with
  | true =>
    refine .bind (throws_attempt _) fun _ => ?_
    refine .bind (throws_announcement hhost hkeys s _ _ _) fun message => ?_
    refine .bind (throws_wrap hhost _) fun post => ?_
    rintro e ⟨⟩
  | false =>
    refine .bind (.bind (throws_attempt _) fun _ => ?_) fun _ => ?_
    · rintro e ⟨⟩
    · rintro e ⟨⟩

/-- A change fails in one of the two ways. -/
theorem throws_changeMode (s : Service) (mode : Mode)
    (hmember : ∀ cause, thrown (.notChannelMember userId channelId cause))
    (hstore : ∀ cause, thrown (.store cause)) :
    (s.changeMode userId channelId mode).Throws thrown := by
  rw [changeMode_eq]
  exact .bind (throws_switchMode s.modes mode hmember hstore) fun changed =>
    throws_announceMode hhost hkeys s _ _ _ changed

end Errors

/-- A switch that was announced is told as one. -/
theorem keeps_announceMode_true (s : Service) (userId channelId : String) (mode : Mode) :
    (s.announceMode userId channelId mode true).run.Keeps .lax fun result =>
      result ≠ .ok false := by
  refine keeps_run_bind.2 (keeps_lax (fun result => ?_) _)
  cases result with
  | error e => rintro ⟨⟩
  | ok published =>
    refine keeps_run_bind.2 (keeps_lax (fun result => ?_) _)
    cases result with
    | error e => rintro ⟨⟩
    | ok message =>
      refine keeps_run_bind.2 (keeps_lax (fun result => ?_) _)
      cases result with
      | error e => rintro ⟨⟩
      | ok post => rintro ⟨⟩

/-! ## The parts of a change, step by step -/

/-- What is known when a switch has come to its end. -/
structure SwitchEnds (climate : Climate) (limit : Option Duration) (channelId : String)
    (mode : Mode) (t : Moment) (result : Except ServiceError Bool) (t' : Moment) : Prop where
  stored : Modes.Stored climate channelId mode t result t'
  inTime : isOver limit t'.waited = false
  early : ∀ e, result = .error e → e.precedesWrite = true
  told : t.world.store.Spares (Key.mode channelId) → ∀ changed, result = .ok changed →
    (changed = true ↔ t.world.store.modeOf channelId ≠ mode)

/-- A switch has made its write when it comes to its end, if it tells so, and is in time. -/
theorem ensures_switchMode_stored (modes : Modes) (userId channelId : String) (mode : Mode) :
    (switchMode modes userId channelId mode).run.Ensures climate limit
      (fun result t' =>
        Modes.Stored climate channelId mode t result t' ∧ isOver limit t'.waited = false)
      (Modes.Unstored climate t) t := by
  rw [switchMode, ensures_run_bind, requireMember, ensures_run_bind, ensures_run_wrap]
  refine .run_host (fun w hw _ => ?_) fun w answer host hw hin hcall => ?_
  · have hturned := Modes.unstored_turned hw
    exact ⟨hturned.1.trans ((t.turned w).does_cutIn _ _), hturned.2⟩
  obtain rfl := Host.eq_of_getChannelMember hcall
  let asked : Moment :=
    (t.turned w).answered (.host (.getChannelMember channelId userId)) answer w
  have hasked : Modes.Unstored climate t asked := ⟨Moment.does_nothing rfl rfl, hw.host⟩
  cases answer with
  | error e => exact ⟨hasked, hin⟩
  | ok member =>
    have hset : (modes.setIfDifferent channelId mode).run.Ensures climate limit
        (Modes.Stored climate channelId mode asked) (Modes.Unstored climate asked) asked :=
      modes.ensures_setIfDifferent_stored channelId mode
    refine ensures_run_wrap.2 ((hset.and (ensures_inTime _ hin)).imp
      (fun result t' h => ⟨?_, h.2⟩) fun t' h => ?_)
    · rw [Modes.Stored, Modes.writesOf_mapError]
      exact ⟨hasked.1.trans h.1.1, hasked.2.trans h.1.2⟩
    · exact ⟨hasked.1.trans h.1.1, hasked.2.trans h.1.2⟩

theorem ensures_switchMode_ends (modes : Modes) (userId channelId : String) (mode : Mode) :
    (switchMode modes userId channelId mode).run.Ensures climate limit
      (SwitchEnds climate limit channelId mode t) (Modes.Unstored climate t) t := by
  have hstored : (switchMode modes userId channelId mode).run.Ensures climate limit _ _ t :=
    ensures_switchMode_stored modes userId channelId mode
  have hthrows : (switchMode modes userId channelId mode).run.Ensures climate limit
      (fun result _ => ∀ e, result = .error e → e.precedesWrite = true) (fun _ => True) t :=
    Keeps.ensures_lax (throws_switchMode modes mode (fun _ => by rfl) fun _ => by rfl)
      climate limit t
  by_cases hw : t.world.store.Spares (Key.mode channelId)
  · refine ((hstored.and hthrows).and (ensures_switchMode modes userId mode hw)).imp
      (fun result t' h => ⟨h.1.1.1, h.1.1.2, h.1.2, fun _ changed hchanged => ?_⟩)
      fun t' h => h.1.1
    obtain ⟨-, hdecided⟩ := h
    rw [hchanged] at hdecided
    cases changed with
    | true => exact iff_of_true rfl hdecided.2.2.1
    | false => exact iff_of_false Bool.false_ne_true (not_not_intro hdecided.2.2.1)
  · exact (hstored.and hthrows).imp
      (fun result t' h => ⟨h.1.1, h.1.2, h.2, fun hspares => absurd hspares hw⟩) fun t' h => h.1

/-- Telling a member that the mode was there already does not fail. -/
theorem ensures_announceMode_false (s : Service) (userId channelId : String) (mode : Mode) :
    (s.announceMode userId channelId mode false).run.Ensures climate limit
      (fun result t' => result = .ok false ∧ t.Does [] [] t' ∧
        t'.world.host.posts = t.world.host.posts)
      (Modes.Unstored climate t) t := by
  rw [announceMode, if_neg Bool.false_ne_true, ensures_run_bind, noticeUnchanged, ensures_run_bind,
    ensures_run_attempt]
  refine .run_host (fun w hw _ => ?_) fun w answer host hw _ hcall => ?_
  · have hturned := Modes.unstored_turned hw
    exact ⟨hturned.1.trans ((t.turned w).does_cutIn _ _), hturned.2⟩
  · have hposts : w.host.posts = t.world.host.posts :=
      hw.host.congr (f := Host.posts) fun _ _ => rfl
    exact ⟨rfl, Moment.does_nothing rfl rfl, (Host.posts_sendEphemeralPost hcall).trans hposts⟩

/-- The event of a mode, if the platform takes events. -/
def eventsOf (channelId : String) (mode : Mode) (h : Host) : List Event :=
  if h.faults.lookup .publishEvent = none then [modeEvent channelId mode] else []

/-- The event of a mode is added to the others, unless the platform takes no events. -/
theorem eq_of_publishEvent {answer : Except HostError Unit} {h h' : Host}
    (hcall : h.call (.publishEvent (modeEvent channelId mode)) = some (answer, h')) :
    h' = { h with events := h.events ++ eventsOf channelId mode h } := by
  rw [Host.call, HostCall.method] at hcall
  rw [eventsOf]
  split at hcall
  · cases hcall
  · rename_i hfault
    cases hcall
    simp [hfault]
  · rename_i hfault
    cases hcall
    simp [hfault]

/-- The event of a mode is published, unless the platform takes no events. -/
theorem event?_publishEvent {answer : Except HostError Unit} {h h' : Host}
    (hcall : h.call (.publishEvent (modeEvent channelId mode)) = some (answer, h')) :
    (Exchange.event? ⟨.host (.publishEvent (modeEvent channelId mode)), some answer⟩).toList =
      eventsOf channelId mode h := by
  have hevents := (Host.call_adds hcall).events
  rw [eq_of_publishEvent hcall] at hevents
  exact (List.append_cancel_left hevents).symm

/-- A platform that crashes over the event takes no events. -/
theorem eventsOf_of_crash {h : Host}
    (hcall : h.call (.publishEvent (modeEvent channelId mode)) = none) :
    eventsOf channelId mode h = [] := by
  refine if_neg fun hpublish => ?_
  rw [Host.call, HostCall.method, hpublish] at hcall
  cases hcall

/-- A switch that is announced has been published, unless the platform takes no events at that
moment. -/
theorem ensures_announceMode_does (s : Service) (userId channelId : String) (mode : Mode)
    (hin : isOver limit t.waited = false) :
    (s.announceMode userId channelId mode true).run.Ensures climate limit
      (fun _ t' => ∃ h, t.world.host.Turns climate h ∧ t.Does [] (eventsOf channelId mode h) t')
      (fun t' => ∃ h, t.world.host.Turns climate h ∧ t.Does [] (eventsOf channelId mode h) t')
      t := by
  rw [announceMode, if_pos rfl, ensures_run_bind, ensures_run_attempt]
  refine .run_host (fun w hw h => ⟨w.host, hw.host, ?_⟩) fun w answer host hw _ hcall => ?_
  -- a call that is in time is cut off only if the platform crashes
  · rw [eventsOf_of_crash (h.resolve_left (by rw [hin]; exact Bool.false_ne_true))]
    exact (t.does_turned w).trans ((t.turned w).does_cutIn _ _)
  · let told : Moment := (t.turned w).answered (.host (.publishEvent (modeEvent channelId mode)))
      answer { w with host }
    have htold : t.Does [] (eventsOf channelId mode w.host) told := by
      have hdoes := (t.turned w).does_answered (.host (.publishEvent (modeEvent channelId mode)))
        answer { w with host }
      rw [event?_publishEvent hcall] at hdoes
      exact (t.does_turned w).trans hdoes
    have hrest := s.within_announcementPost
      (r := ⟨fun _ => True, fun _ _ => False, fun _ => False⟩) (fun _ => trivial) userId channelId
      mode
    refine (hrest.ensures_does (t := told) (fun _ _ => id) fun _ => id).imp
      (fun _ t' h => ⟨w.host, hw.host, ?_⟩) fun t' h => ⟨w.host, hw.host, ?_⟩
    · simpa using htold.trans h
    · simpa using htold.trans h

/-- Between two moments a switch was written over another mode and published, if the platform took
the event. -/
structure Switches (climate : Climate) (channelId : String) (mode : Mode) (t t' : Moment) :
    Prop where
  does : ∃ h, t.world.host.Turns climate h ∧
    t.Does [(Key.mode channelId, some mode.encode)] (eventsOf channelId mode h) t'
  other : t.world.store.Spares (Key.mode channelId) → t.world.store.modeOf channelId ≠ mode

/-- What is known when a change has come to its end. -/
def ChangeEnds (climate : Climate) (channelId : String) (mode : Mode) (t : Moment)
    (result : Except ServiceError Bool) (t' : Moment) : Prop :=
  match result with
  | .ok true => Switches climate channelId mode t t'
  | .ok false => t.Does [] [] t' ∧ t'.world.host.posts = t.world.host.posts ∧
    (t.world.store.Spares (Key.mode channelId) → t.world.store.modeOf channelId = mode)
  | .error e =>
    if e.precedesWrite then Modes.Unstored climate t t' else Switches climate channelId mode t t'

/-- **What a change does.**  A change that fails before its write has done nothing, and one that
fails after it, or is cut off there, has been written and published all the same. -/
theorem ensures_changeMode_ends (s : Service) (userId channelId : String) (mode : Mode) :
    (s.changeMode userId channelId mode).run.Ensures climate limit
      (ChangeEnds climate channelId mode t)
      (fun t' => Modes.Unstored climate t t' ∨ Switches climate channelId mode t t') t := by
  rw [changeMode_eq, ensures_run_bind]
  refine (ensures_switchMode_ends s.modes userId channelId mode).imp (fun result t' h => ?_)
    fun t' h => .inl h
  obtain ⟨⟨hdoes, hhost⟩, hin, hearly, htold⟩ := h
  rcases result with e | _ | _
  · exact (if_pos (hearly e rfl)).mpr ⟨hdoes, hhost⟩
  · have hsame (hw : t.world.store.Spares (Key.mode channelId)) :
        t.world.store.modeOf channelId = mode :=
      not_not.1 fun hother => Bool.false_ne_true ((htold hw false rfl).2 hother)
    have hposts : t'.world.host.posts = t.world.host.posts :=
      hhost.congr (f := Host.posts) fun _ _ => rfl
    refine (s.ensures_announceMode_false userId channelId mode).imp (fun result t'' h => ?_)
      fun t'' h => .inl ⟨hdoes.trans h.1, hhost.trans h.2⟩
    obtain ⟨rfl, hquiet, hposts'⟩ := h
    exact ⟨hdoes.trans hquiet, hposts'.trans hposts, hsame⟩
  · have hswitches {t'' : Moment} (h : ∃ h, t'.world.host.Turns climate h ∧
        t'.Does [] (eventsOf channelId mode h) t'') :
        Switches climate channelId mode t t'' := by
      obtain ⟨h, hturns, hpublished⟩ := h
      exact ⟨⟨h, hhost.trans hturns, hdoes.trans hpublished⟩, fun hw => (htold hw true rfl).1 rfl⟩
    have htrue := (s.keeps_announceMode_true userId channelId mode).ensures_lax climate limit t'
    -- the errors of the announcement come after the write
    have hthrows : (s.announceMode userId channelId mode true).Throws fun e =>
        e.precedesWrite = false :=
      throws_announceMode (fun _ => by rfl) (fun _ => by rfl) s _ _ _ true
    have hlate := Keeps.ensures_lax hthrows climate limit t'
    refine (((s.ensures_announceMode_does userId channelId mode hin).and htrue).and hlate).imp
      (fun result t'' h => ?_) fun t'' h => .inr (hswitches h.1.1)
    obtain ⟨⟨hdone, hfalse⟩, herror⟩ := h
    rcases result with e | _ | _
    · exact (if_neg (by rw [herror e rfl]; exact Bool.false_ne_true)).mpr (hswitches hdone)
    · exact absurd rfl hfalse
    · exact hswitches hdone

end Service
end SealedChannel
