import SealedChannel.Proofs.Http.Push
import SealedChannel.Proofs.Program.Deadline
import SealedChannel.Proofs.Service.FailedChange
import SealedChannel.Proofs.Session.PostFilter

/-!
# Changes of a mode that fail, by operation and by request

An error tells whether a change of a mode has been made: if it comes before the write, nothing has
happened, and otherwise the mode is the new one and has been published.  Only a request that is cut
off leaves this open.  The store and the platform may fail at any call and not at the next one.

## What is here

* `Http.answerAmid_of_unread` — a request for a change that cannot be read does nothing.
* `Http.answerAmid_of_failed` — a request that is read and not answered with 200.
* `Http.failed_change` — how changes fail.
-/

set_option autoImplicit false
namespace SealedChannel
namespace Http

open Program

variable {s : Service} {r : Request} {weather : Weather} {w : World} {userId channelId : String}
  {mode : Mode}

/-- A request to change a mode that names no user or cannot be read is answered without any call. -/
theorem answerAmid_of_unread (weather : Weather) (s : Service) (w : World)
    (hmethod : r.method = "POST") (hpath : r.path = "/api/v1/channel/encryption_method")
    (h : r.switch? = none) :
    (answerAmid weather s r w).2 = w ∧ exchangesAmid weather s r w = [] := by
  have hroute : Route.ofPath? r.path = some .channelMode := by rw [hpath]; rfl
  have haction : Route.channelMode.action? r.method = some .changeMode := by rw [hmethod]; rfl
  obtain ⟨response, hresponse⟩ : ∃ response, Api.respond s .channelMode r = .done response := by
    rw [Request.switch?, if_pos ⟨hmethod, hpath⟩] at h
    simp only [Api.respond, Route.isPublic, Api.respondOn, haction, Api.perform, Api.withQuery]
    cases huser : r.user? with
    | none => exact ⟨_, rfl⟩
    | some userId =>
      cases hquery : ChannelQuery.ofQuery r.query with
      | error name => exact ⟨_, rfl⟩
      | ok query =>
        rw [huser, hquery] at h
        cases h
  rw [answerAmid, exchangesAmid, hroute]
  dsimp only
  rw [hresponse]
  exact ⟨rfl, rfl⟩

/-- A request to change a mode that is not answered with 200 tells of an error of the change, or was
cut off. -/
theorem answerAmid_of_failed (hswitch : r.switch? = some (userId, channelId, mode))
    (hstatus : (answerAmid weather s r w).1.status ≠ 200) :
    (∃ e, (answerAmid weather s r w).1 = Api.failure e ∧
      s.Failed weather.climate userId channelId mode e w (exchangesAmid weather s r w)
        (answerAmid weather s r w).2) ∨
    ((answerAmid weather s r w).1 ∈ [.empty 408, .text 500 "Internal server error"] ∧
      (s.Unswitched weather.climate userId channelId mode w (exchangesAmid weather s r w)
          (answerAmid weather s r w).2 ∨
        s.Switched weather.climate userId channelId mode w (exchangesAmid weather s r w)
          (answerAmid weather s r w).2)) := by
  have hanswers := Api.answers_of_switch s hswitch
  obtain ⟨hfailed, hcut⟩ := s.failed_changeMode userId channelId mode weather (some deadline) w
  rw [hanswers.exchangesAmid, hanswers.answerAmid] at *
  dsimp only at *
  cases houtcome : ((s.changeMode userId channelId mode).run.runAmid weather (some deadline) w).1
    with
  | finished result =>
    cases result with
    | error e => exact .inl ⟨e, rfl, hfailed e houtcome⟩
    | ok changed =>
      rw [houtcome] at hstatus
      exact absurd rfl hstatus
  | expired => exact .inr ⟨List.mem_cons_self, hcut (by rw [houtcome]; rfl)⟩
  | stuck => exact .inr ⟨List.mem_cons_self, hcut (by rw [houtcome]; rfl)⟩
  | crashed =>
    exact .inr ⟨List.mem_cons_of_mem _ List.mem_cons_self, hcut (by rw [houtcome]; rfl)⟩

/-- **How changes fail.**  A change of a mode that fails because the user is not known to be a
member, or with an error of the store on its way to the write, has done nothing: no write and no
event is its own, and it may be asked for again.  A change that fails with any other error has been
written over another mode and published, and who asks again is told that nothing has changed.  The
same holds of a request, except that one that is cut off may have come to either end; and a request
that cannot be read does nothing. -/
theorem failed_change (s : Service) (w : World) :
    (∀ userId channelId mode weather limit e,
      ((s.changeMode userId channelId mode).run.runAmid weather limit w).1
        = .finished (.error e) →
        s.Failed weather.climate userId channelId mode e w
          ((s.changeMode userId channelId mode).run.transcriptAmid weather limit w)
          ((s.changeMode userId channelId mode).run.runAmid weather limit w).2) ∧
    ∀ weather, ∀ r : Request, r.method = "POST" →
      r.path = "/api/v1/channel/encryption_method" →
      (answerAmid weather s r w).1.status ≠ 200 →
        ((answerAmid weather s r w).2 = w ∧ exchangesAmid weather s r w = []) ∨
        ∃ userId channelId mode, r.switch? = some (userId, channelId, mode) ∧
          ((∃ e, (answerAmid weather s r w).1 = Api.failure e ∧
            s.Failed weather.climate userId channelId mode e w (exchangesAmid weather s r w)
              (answerAmid weather s r w).2) ∨
          ((answerAmid weather s r w).1 ∈ [.empty 408, .text 500 "Internal server error"] ∧
            (s.Unswitched weather.climate userId channelId mode w (exchangesAmid weather s r w)
                (answerAmid weather s r w).2 ∨
              s.Switched weather.climate userId channelId mode w (exchangesAmid weather s r w)
                (answerAmid weather s r w).2))) := by
  refine ⟨fun userId channelId mode weather limit =>
    (s.failed_changeMode userId channelId mode weather limit w).1,
    fun weather r hmethod hpath hstatus => ?_⟩
  cases hswitch : r.switch? with
  | none => exact .inl (answerAmid_of_unread weather s w hmethod hpath hswitch)
  | some switch =>
    obtain ⟨userId, channelId, mode⟩ := switch
    exact .inr ⟨userId, channelId, mode, rfl, answerAmid_of_failed hswitch hstatus⟩

/-- The store answers until the change is written and published, and then takes no more reads. -/
def keysUnread : Weather :=
  [none, none, none, none, none, some ⟨⟨0⟩, true, false, false, false, false, []⟩]

/-- A store that loses the keys of members lets a change fail that has been made, and so does a
platform that refuses posts. -/
theorem failed_change_of_refusal :
    (((Service.new .default true).changeMode "u" "c" .p2p).run.runAmid keysUnread none
        smallWorld).1 = .finished (.error (.publicKey (.store (.backend "injected get failure")))) ∧
      (Service.new .default true).Switched keysUnread.climate "u" "c" .p2p smallWorld
        (((Service.new .default true).changeMode "u" "c" .p2p).run.transcriptAmid keysUnread none
          smallWorld)
        (((Service.new .default true).changeMode "u" "c" .p2p).run.runAmid keysUnread none
          smallWorld).2 ∧
      (answerAmid [] (.new .default true) switchRequest Session.quietWorld).1.status = 500 ∧
      (Service.new .default true).Switched .calm "u" "c" .p2p Session.quietWorld
        (exchanges (.new .default true) switchRequest Session.quietWorld)
        (answer (.new .default true) switchRequest Session.quietWorld).2 := by
  have hfailed : (((Service.new .default true).changeMode "u" "c" .p2p).run.runAmid keysUnread none
      smallWorld).1 = .finished (.error (.publicKey (.store (.backend "injected get failure")))) := by
    decide +kernel
  have hstatus : (answerAmid [] (.new .default true) switchRequest
      Session.quietWorld).1.status = 500 := by
    decide +kernel
  have hswitch : switchRequest.switch? = some ("u", "c", .p2p) := by rfl
  have hwrites : (exchangesAmid [] (.new .default true) switchRequest
      Session.quietWorld).filterMap Exchange.write? ≠ [] := by
    decide +kernel
  have hchange := (failed_change (.new .default true) smallWorld).1
  have hrequest := (failed_change (.new .default true) Session.quietWorld).2 [] switchRequest rfl
    rfl (by rw [hstatus]; decide)
  refine ⟨hfailed, hchange "u" "c" .p2p keysUnread none _ hfailed, hstatus, ?_⟩
  rcases hrequest with ⟨-, hnone⟩ | ⟨userId, channelId, mode, hasked, hends⟩
  · exact absurd (by rw [hnone]; rfl) hwrites
  · obtain ⟨rfl, rfl, rfl⟩ : userId = "u" ∧ channelId = "c" ∧ mode = .p2p := by
      rw [hswitch] at hasked
      simpa [eq_comm] using hasked
    rw [← answerAmid_nil, ← exchangesAmid_nil, ← Weather.climate_nil]
    rcases hends with ⟨e, -, hfailed⟩ | ⟨-, hcut⟩
    · rw [Service.Failed] at hfailed
      split at hfailed
      · exact absurd hfailed.writes hwrites
      · exact hfailed
    · exact hcut.resolve_left fun hunswitched => hwrites hunswitched.writes

/-- An error does not tell that nothing has happened: the new mode has been stored and published. -/
theorem failed_change_stored :
    (((Service.new .default true).changeMode "u" "c" .p2p).run.run none Session.quietWorld).1
        = .finished (.error (.host (.failed "post creation failed"))) ∧
      Session.quietWorld.store.get? (Key.mode "c") = none ∧
      (((Service.new .default true).changeMode "u" "c" .p2p).run.run none
        Session.quietWorld).2.store.get? (Key.mode "c") = some Mode.p2p.encode ∧
      (((Service.new .default true).changeMode "u" "c" .p2p).run.run none
        Session.quietWorld).2.host.events.map Event.name = ["channelStateChanged"] := by
  refine ⟨?_, ?_, ?_, ?_⟩ <;> decide +kernel

end Http
end SealedChannel
