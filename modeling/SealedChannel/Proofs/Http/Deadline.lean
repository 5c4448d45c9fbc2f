import SealedChannel.Proofs.Http.Footprint
import SealedChannel.Proofs.Program.Deadline
import SealedChannel.Proofs.Service.Locks

/-!
# The deadline of a request

`Api.serve` is what the routes do, and its run without a limit is what they do if nobody stands in
front of them.  What stands in front of them puts an end to a request that takes too long and to one
in which the platform crashes.  It does nothing else: a request that it lets pass is answered as
without it, and one that it cuts off has done what the routes did up to there, and not a call more.

## What is here

* `Request.responseTo`, `answer_eq` — the response to a request, from the run of its program.
* `Api.restores_serve` — a request gives back the locks that it takes.
* `CutOff` — what is left of a request that was cut off in a call.
* `answer_truncates` — requests are let pass or cut off, and nothing else.
-/

set_option autoImplicit false
namespace SealedChannel
namespace Http

open Program

/-! ## Responses -/

/-- The response to the way in which the run of a request ended.  The response to one that was cut
off has no body either where the method is `HEAD`. -/
def Request.responseTo (r : Request) : Outcome Response → Response
  | .finished response => response
  | outcome =>
    if r.method = "HEAD" then (Http.responseTo outcome).withoutBody else Http.responseTo outcome

/-- The response to a request that took too long. -/
theorem Request.responseTo_expired (r : Request) : r.responseTo .expired = .empty 408 := by
  rw [responseTo]
  · split <;> rfl
  · rintro response ⟨⟩

/-- A method that a route does not allow is refused without any call. -/
theorem Api.respond_of_not_allowed (s : Service) {r : Request} {route : Route}
    (h : route.action? r.method = none) : ∃ response, respond s route r = pure response := by
  rw [respond]
  split
  · rw [respondOn, h]
    exact ⟨_, rfl⟩
  · exact ⟨_, rfl⟩

/-- **The response to a request** is told by the run of its program under the deadline. -/
theorem answer_eq (s : Service) (r : Request) (w : World) :
    answer s r w = (r.responseTo ((Api.serve s r).run (some deadline) w).1,
      ((Api.serve s r).run (some deadline) w).2) := by
  rw [answer, Api.serve]
  cases Route.ofPath? r.path with
  | none => rfl
  | some route =>
    dsimp only
    rw [run_map]
    cases haction : route.action? r.method with
    | none =>
      -- no call is made, so there is nothing that could be cut off
      obtain ⟨response, hresponse⟩ := Api.respond_of_not_allowed s haction
      rw [hresponse]
      rfl
    | some action =>
      generalize (Api.respond s route r).run (some deadline) w = ending
      obtain ⟨outcome, w'⟩ := ending
      cases outcome with
      | finished response => rfl
      | _ => simp [Request.responseTo, Outcome.map, finish, haction]

theorem answer_snd (s : Service) (r : Request) (w : World) :
    (answer s r w).2 = ((Api.serve s r).run (some deadline) w).2 := by
  rw [answer_eq]

/-! ## Locks -/

namespace Api

variable {held : List Nat}

theorem restores_respondWith {α : Type} {success : α → Response} {op : Operation ServiceError α}
    (hop : op.run.Restores held) : (respondWith success op).Restores held := by
  rw [respondWith_eq]
  exact .map hop

theorem restores_withBody {α : Type} {r : Request} {diagnose : Json.Diagnosis}
    {read : Json → Option α}
    {handle : α → Program Response} (h : ∀ a, (handle a).Restores held) :
    (withBody r diagnose read handle).Restores held := by
  rw [withBody]
  split
  · exact .pure _
  · split
    · exact h _
    · exact .pure _

theorem restores_withQuery {r : Request} {handle : ChannelQuery → Program Response}
    (h : ∀ query, (handle query).Restores held) : (withQuery r handle).Restores held := by
  rw [withQuery]
  split
  · exact h _
  · exact .pure _

variable (s : Service) (r : Request)

theorem restores_perform (userId : String) (action : Action) :
    (perform s userId r action).Restores [] := by
  cases action with
  | health => exact .pure _
  | publishKeys =>
    rw [perform]
    exact restores_withBody fun push => restores_respondWith (s.restores_pushKeys userId push)
  | lookUpKeys =>
    rw [perform]
    exact restores_withBody fun userIds => restores_respondWith (s.restores_keysOf userIds)
  | showMode =>
    rw [perform]
    exact restores_withQuery fun query =>
      restores_respondWith (s.restores_channelMode userId query.channelId)
  | changeMode =>
    rw [perform]
    exact restores_withQuery fun query =>
      restores_respondWith (s.restores_changeMode userId _ List.not_mem_nil)
  | gpgKey => exact restores_respondWith (s.restores_gpgKeyOf userId)

/-- A request that begins while no lock is held takes none that is, and gives back what it takes. -/
theorem restores_serve : (serve s r).Restores [] := by
  rw [serve]
  split
  · exact .pure _
  · refine .map ?_
    rw [respond]
    split
    · rw [respondOn]
      split
      · exact restores_perform s r _ _
      · exact .pure _
    · exact .pure _

/-- Begun while no lock is held, a request waits for none and leaves none behind. -/
theorem run_serve_of_free {w : World} (hheld : w.held = []) (limit : Option Duration) :
    ((serve s r).run limit w).1 ≠ .stuck ∧ ((serve s r).run limit w).2.held = [] := by
  have hrestores : (serve s r).Restores w.held := by
    rw [hheld]
    exact restores_serve s r
  have hrun := hrestores.run limit
  rwa [hheld] at hrun

end Api

/-! ## Requests that are cut off -/

/-- A request was cut off in the call `c`: without a deadline, it had waited for `d` when it came to
that call, in the world `w'`.  This is the world that is left, with no lock in it. -/
structure CutOff (s : Service) (r : Request) (w : World) (c : Call) (d : Duration) (w' : World) :
    Prop where
  reaches : ∃ exchanges next, (Api.serve s r).Reaches w exchanges d (.call c next) w'
  agrees : (answer s r w).2.Agrees w'
  unlocked : (answer s r w).2.held = []
  /-- Unless a foreign write was there to be moved, the whole world is the same. -/
  eq_of_queued : w.store.queued = [] → (answer s r w).2 = { w' with held := [] }

/-- There is some time to answer a request. -/
theorem zero_lt_deadline : ⟨0⟩ < deadline := by
  decide

/-- A run that stopped in a call leaves a request that was cut off there. -/
theorem CutOff.of_run {s : Service} {r : Request} {w w' left : World} {exchanges : List Exchange}
    {d : Duration} {c : Call} {next : c.Answer → Program Response} (hheld : w.held = [])
    (hreaches : (Api.serve s r).Reaches w exchanges d (.call c next) w')
    (hrun : ((Api.serve s r).run (some deadline) w).2 = { left with held := w.held })
    (hleft : left = w' ∨ left = w'.begin c) : CutOff s r w c d w' := by
  have hanswer : (answer s r w).2 = { left with held := [] } := by
    rw [answer_snd, hrun, hheld]
  refine ⟨⟨exchanges, next, hreaches⟩, ?_, ?_, fun hqueued => ?_⟩
  · have hagrees : left.Agrees w' := by
      rcases hleft with rfl | rfl
      · exact ⟨rfl, rfl, rfl, rfl, rfl⟩
      · exact World.agrees_begin w' c
    rw [hanswer]
    exact ⟨hagrees.entries, hagrees.gets, hagrees.writes, hagrees.host, hagrees.keyServer⟩
  · rw [hanswer]
  · have hsame : left = w' := by
      rcases hleft with rfl | rfl
      · rfl
      · exact World.begin_of_queued (hreaches.queued hqueued) c
    rw [hanswer, hsame]

/-- **The deadline only truncates.**  Begun while no lock is held, a request that waits for less
than the deadline and in which the platform does not crash is answered as without the deadline.  If
it would wait for longer, the response is 408; if the platform crashes before that, it is 500 with a
text, which `HEAD` loses.  In either case the request has done what it does without the deadline up
to the call in which it was cut off.  It holds no lock any more, so that no later request waits for
one. -/
theorem answer_truncates (s : Service) (r : Request) {w : World} (hheld : w.held = []) :
    ((Api.serve s r).waiting w < deadline → ((Api.serve s r).run none w).1 ≠ .crashed →
      ∃ response w', (Api.serve s r).run none w = (.finished response, w') ∧
        answer s r w = (response, w')) ∧
    ((Api.serve s r).waiting w < deadline → ((Api.serve s r).run none w).1 = .crashed →
      (answer s r w).1 = (if r.method = "HEAD" then
        (Response.text 500 "Internal server error").withoutBody
        else .text 500 "Internal server error") ∧
      ∃ c d w', CutOff s r w c d w' ∧ w'.react c = .crashed) ∧
    (deadline < (Api.serve s r).waiting w → (answer s r w).1 = .empty 408 ∧
      ∃ c d w', CutOff s r w c d w' ∧ d < deadline ∧ deadline ≤ d + w'.waitFor c) ∧
    (answer s r w).2.held = [] ∧
    ∀ limit r', ((Api.serve s r').run limit (answer s r w).2).1 ≠ .stuck := by
  have hunlocked : (answer s r w).2.held = [] := by
    rw [answer_snd, (Api.run_serve_of_free s r hheld (some deadline)).2]
  have hfree (limit : Option Duration) (r' : Request) :
      ((Api.serve s r').run limit (answer s r w).2).1 ≠ .stuck :=
    (Api.run_serve_of_free s r' hunlocked limit).1
  refine ⟨fun hbelow hcrash => ?_, fun hbelow hcrash => ?_, fun habove => ?_, hunlocked, hfree⟩
  · have hstuck := (Api.run_serve_of_free s r hheld none).1
    have hexpired := run_none_ne_expired (Api.serve s r) w
    rw [answer_eq, run_of_waiting_lt hbelow]
    generalize (Api.serve s r).run none w = ending at hcrash hstuck hexpired
    obtain ⟨outcome, w'⟩ := ending
    cases outcome with
    | finished response => exact ⟨response, w', rfl, rfl⟩
    | expired => exact absurd rfl hexpired
    | crashed => exact absurd rfl hcrash
    | stuck => exact absurd rfl hstuck
  · obtain ⟨exchanges, d, c, next, w', hreaches, hreact, hrun⟩ := run_of_crashed hcrash
    rw [← run_of_waiting_lt hbelow] at hrun
    refine ⟨?_, c, d, w', .of_run hheld hreaches (by rw [hrun]) (.inl rfl), hreact⟩
    rw [answer_eq, hrun]
    rfl
  · obtain ⟨exchanges, d, c, next, w', hreaches, hbefore, hafter, hrun⟩ :=
      run_of_le_waiting zero_lt_deadline (Nat.le_of_lt habove)
    refine ⟨?_, c, d, w', .of_run hheld hreaches (by rw [hrun]) (.inr rfl), hbefore, hafter⟩
    rw [answer_eq, hrun]
    exact r.responseTo_expired

/-- A channel with one member, with a store and a fault of the platform. -/
def memberWorld (store : Store) (fault : Option Fault) : World :=
  { World.new store with
    host := ((Host.new.addUser "u" "ann").2.addMember "c" "u").setFault .getChannelMember fault }

/-- A store that takes three seconds for a call. -/
def slowStore : Store :=
  { Store.memory with latency := .ofSeconds 3 }

/-- The member asks for the mode of the channel, or for encryption. -/
def modeRequest (method : String) : Request :=
  ⟨method, "/api/v1/channel/encryption_method?chanID=c&method=p2p", some [0x75], []⟩

/-- A switch makes two calls to the store, of which the second one is too late if the store is slow.
-/
theorem answer_truncates_switch :
    (memberWorld slowStore none).held = [] ∧
      deadline < (Api.serve (.new .default true) (modeRequest "POST")).waiting
        (memberWorld slowStore none) ∧
      (answer (.new .default true) (modeRequest "POST") (memberWorld slowStore none)).1
        = .empty 408 ∧
      (memberWorld .memory (some .crash)).held = [] ∧
      ((Api.serve (.new .default true) (modeRequest "POST")).run none
        (memberWorld .memory (some .crash))).1 = .crashed ∧
      (answer (.new .default true) (modeRequest "POST") (memberWorld .memory (some .crash))).1
        = .text 500 "Internal server error" := by
  have habove : deadline < (Api.serve (.new .default true) (modeRequest "POST")).waiting
      (memberWorld slowStore none) := by decide +kernel
  have hcrash : ((Api.serve (.new .default true) (modeRequest "POST")).run none
      (memberWorld .memory (some .crash))).1 = .crashed := by decide +kernel
  have hslow := (answer_truncates (.new .default true) (modeRequest "POST")
    (w := memberWorld slowStore none) rfl).2.2.1 habove
  have hcrashed := (answer_truncates (.new .default true) (modeRequest "POST")
    (w := memberWorld .memory (some .crash)) rfl).2.1 (by decide +kernel) hcrash
  exact ⟨rfl, habove, hslow.1, rfl, hcrash, hcrashed.1⟩

/-- Where the platform crashes, a response to `HEAD` has no text. -/
theorem crashed_head_has_no_text :
    (memberWorld .memory (some .crash)).held = [] ∧
      ((Api.serve (.new .default true) (modeRequest "HEAD")).run none
        (memberWorld .memory (some .crash))).1 = .crashed ∧
      (Api.serve (.new .default true) (modeRequest "HEAD")).waiting
        (memberWorld .memory (some .crash)) < deadline ∧
      (answer (.new .default true) (modeRequest "HEAD")
        (memberWorld .memory (some .crash))).1.body ≠ Bytes.ofText "Internal server error" := by
  decide +kernel

end Http

end SealedChannel
