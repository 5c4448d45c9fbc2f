import SealedChannel.Proofs.Chat.Call
import SealedChannel.Proofs.Http.Footprint
import SealedChannel.Proofs.Program.Transcript
import SealedChannel.Proofs.Storage.Key

/-!
# The authority of a request

A request changes the store only on behalf of the user whom the platform names, and the mode of a
channel only after the platform has confirmed that the user is a member.

## What is here

* `Contract.until` — nothing is written until some exchange confirms it.
* `Confirms` — the exchange by which the platform confirms a membership.
* `Api.awaits_respond` — a request on a channel waits for that exchange.
* `Http.authority` — every value that a request changes is one that it has authority for.
-/

set_option autoImplicit false
namespace SealedChannel

/-- Nothing may be written as long as no exchange confirms it. -/
def Contract.until (confirms : Exchange → Prop) : Contract where
  allows c := c.target? = none
  answers c answer := ¬ confirms ⟨c, some answer⟩

namespace Program

variable {α : Type} {confirms : Exchange → Prop} {key : String}

/-- A program that writes nothing at all keeps it. -/
theorem Writes.until {p : Program α} (h : p.Writes fun _ _ => False) :
    p.Keeps (.until confirms) fun _ => True := by
  refine h.keeps.weaken (fun c hc => ?_) fun _ _ _ => trivial
  exact Option.eq_none_iff_forall_ne_some.2 fun target htarget => hc target.1 target.2 htarget

/-- In a run without such an exchange nothing changes. -/
theorem Keeps.get?_run_of_until {limit : Option Duration} {p : Program α} {w : World}
    (h : p.Keeps (.until confirms) fun _ => True) (hw : w.store.Spares key)
    (hnone : ∀ e ∈ p.transcript limit w, ¬ confirms e) :
    (p.run limit w).2.store.get? key = w.store.get? key := by
  have htrust : ∀ e ∈ p.transcript limit w, (Contract.until confirms).Trusts e := by
    intro e he answer hanswer hconfirms
    rw [← hanswer] at hconfirms
    exact hnone e he hconfirms
  refine Decidable.byContradiction fun hne => ?_
  obtain ⟨e, hallows, heffect⟩ := exists_of_get?_run_ne h hw htrust hne
  have htarget := Exchange.target?_of_effectOn? heffect
  rw [hallows] at htarget
  cases htarget

end Program

/-! ## Memberships -/

/-- The platform confirms that a user is a member of a channel. -/
def Confirms (userId channelId : String) (e : Exchange) : Prop :=
  ∃ member, e = ⟨.host (.getChannelMember channelId userId), some (.ok member)⟩

/-- For a user who is no member there is no confirmation. -/
theorem upheld_until_confirms (userId channelId : String) :
    (Contract.until (Confirms userId channelId)).Upheld
      fun w => userId ∉ w.host.membersOf channelId where
  held _ hw := hw
  begin {w c} hw _ := by cases c <;> exact hw
  react {w c answer w'} hw _ hreact := by
    by_cases hc : ∃ call, c = .host call
    · obtain ⟨call, rfl⟩ := hc
      rw [World.react] at hreact
      split at hreact
      · cases hreact
      · rename_i answer' host hcall
        cases hreact
        refine ⟨?_, by rwa [Host.membersOf_call hcall]⟩
        rintro ⟨member, heq⟩
        cases heq
        exact hw (Host.mem_membersOf_of_call hcall)
    · refine ⟨?_, by rwa [World.host_react (fun call h => hc ⟨call, h⟩) hreact]⟩
      rintro ⟨member, heq⟩
      exact hc ⟨_, congrArg Exchange.call heq⟩

/-! ## Requests on a channel -/

namespace Service

theorem awaits_requireMember (userId channelId : String) :
    (requireMember userId channelId).run.Keeps (.until (Confirms userId channelId))
      fun r => ∃ e, r = .error e := by
  rw [requireMember, Program.keeps_run_bind, Program.keeps_run_wrap, Program.keeps_run_host]
  refine ⟨rfl, ?_⟩
  rintro (e | member) hanswer
  · exact ⟨_, rfl⟩
  · exact absurd ⟨member, rfl⟩ hanswer

/-- A change of a mode waits for the confirmation that its user is a member. -/
theorem awaits_changeMode (s : Service) (userId channelId : String) (mode : Mode) :
    (s.changeMode userId channelId mode).run.Keeps (.until (Confirms userId channelId))
      fun _ => True := by
  rw [changeMode, Program.keeps_run_bind]
  refine (awaits_requireMember userId channelId).imp ?_
  rintro r ⟨e, rfl⟩
  trivial

end Service

namespace Http

namespace Api

/-- A request on a channel waits for the confirmation that its user is a member. -/
theorem awaits_respond (s : Service) {r : Request} {userId : String} {query : ChannelQuery}
    (hroute : Route.ofPath? r.path = some .channelMode) (huser : r.user? = some userId)
    (hquery : ChannelQuery.ofQuery r.query = .ok query) :
    (respond s .channelMode r).Keeps (.until (Confirms userId query.channelId)) fun _ => True := by
  rcases Decidable.em (r.method = "POST") with hmethod | hmethod
  · have hswitch : r.switch? = some (userId, query.channelId, Mode.ofName query.mode) := by
      rw [Request.switch?, if_pos ⟨hmethod, Route.path_of_ofPath? hroute⟩, huser, Option.bind_some,
        hquery]
      rfl
    rw [(answers_of_switch s hswitch).respond, respondWith, Program.keeps_bind]
    refine (s.awaits_changeMode userId query.channelId _).imp fun answer _ => ?_
    cases answer <;> trivial
  · exact (writes_respond s hroute).mono (fun key value h => hmethod h.1) |>.until

end Api

/-! ## Requests -/

variable {s : Service} {r : Request} {w : World}

/-- Without a confirmation that its user is a member, a request on a channel changes nothing. -/
theorem get?_answer_of_unconfirmed {key userId : String} {query : ChannelQuery}
    (hw : w.store.Spares key) (hpath : r.path = "/api/v1/channel/encryption_method")
    (huser : r.user? = some userId) (hquery : ChannelQuery.ofQuery r.query = .ok query)
    (hnone : ∀ e ∈ exchanges s r w, ¬ Confirms userId query.channelId e) :
    (answer s r w).2.store.get? key = w.store.get? key := by
  have hroute : Route.ofPath? r.path = some .channelMode := by rw [hpath]; rfl
  rw [answer_of_route hroute]
  rw [exchanges, hroute] at hnone
  exact (Api.awaits_respond s hroute huser hquery).get?_run_of_until hw hnone

/-! ## Users -/

/-- A request names a user in a header that holds text and is not empty. -/
def Request.Names (r : Request) (userId : String) : Prop :=
  ∃ value, r.userHeader = some value ∧ value ≠ [] ∧ (∀ b ∈ value, isHeaderText b = true) ∧
    userId = String.ofList (value.map fun b => Char.ofNat b.toNat)

theorem Request.user?_eq_some_iff {userId : String} :
    r.user? = some userId ↔ r.Names userId := by
  rw [Request.user?, Request.Names]
  cases r.userHeader with
  | none => simp
  | some value =>
    have hcond : (!value.isEmpty && value.all isHeaderText) = true ↔
        value ≠ [] ∧ ∀ b ∈ value, isHeaderText b = true := by simp
    dsimp only
    split
    · rename_i h
      obtain ⟨hne, htext⟩ := hcond.1 h
      refine ⟨fun hu => ⟨value, rfl, hne, htext, (Option.some.inj hu).symm⟩, ?_⟩
      rintro ⟨_, ⟨rfl⟩, -, -, rfl⟩
      rfl
    · rename_i h
      refine ⟨fun hu => (by cases hu), ?_⟩
      rintro ⟨_, ⟨rfl⟩, hne, htext, -⟩
      exact absurd (hcond.2 ⟨hne, htext⟩) h

/-- A request that names no user is answered without any call. -/
theorem respond_of_nameless (h : ∀ userId, ¬ r.Names userId) (route : Route) :
    ∃ response, Api.respond s route r = .done response := by
  have huser : r.user? = none :=
    Option.eq_none_iff_forall_ne_some.2 fun userId hu => h userId (Request.user?_eq_some_iff.1 hu)
  cases route with
  | health =>
    simp only [Api.respond, Route.isPublic, Api.respondOn, Route.action?]
    cases Route.isRead r.method with
    | true => exact ⟨.text 200 "OK", rfl⟩
    | false => exact ⟨.empty 405, rfl⟩
  | _ =>
    refine ⟨Api.failure .unauthorized, ?_⟩
    simp only [Api.respond, Route.isPublic, huser]
    rfl

/-! ## Authority -/

/-- **The authority of requests.**  A request that changes a value names a user, and either
publishes keys and changes the key pair or the backup of that user, or changes the mode of the
channel that it names after the platform has confirmed that the user is a member.  In particular, a
request that names no user changes nothing and makes no call, and a request that reads and a request
by a user who is no member of the channel change nothing. -/
theorem authority (s : Service) (r : Request) {w : World} (hw : ∀ key, w.store.Spares key) :
    (∀ key, (answer s r w).2.store.get? key ≠ w.store.get? key →
      ∃ userId, r.Names userId ∧ r.method = "POST" ∧
        ((r.path = "/api/v1/pubkey/push" ∧ (key = Key.pubkey userId ∨ key = Key.backup userId)) ∨
          (r.path = "/api/v1/channel/encryption_method" ∧ ∃ query,
            ChannelQuery.ofQuery r.query = .ok query ∧ key = Key.mode query.channelId ∧
              ∃ e ∈ exchanges s r w, Confirms userId query.channelId e))) ∧
    ((∀ userId, ¬ r.Names userId) → (answer s r w).2 = w ∧ exchanges s r w = []) ∧
    (r.method = "GET" → ∀ key, (answer s r w).2.store.get? key = w.store.get? key) ∧
    (∀ userId query, r.Names userId → r.path = "/api/v1/channel/encryption_method" →
      ChannelQuery.ofQuery r.query = .ok query → userId ∉ w.host.membersOf query.channelId →
        ∀ key, (answer s r w).2.store.get? key = w.store.get? key) := by
  refine ⟨?_, ?_, ?_, ?_⟩
  · intro key hne
    obtain ⟨hmethod, userId, huser, h⟩ := mayWrite_of_answer_ne (hw key) hne
    refine ⟨userId, Request.user?_eq_some_iff.1 huser, hmethod, ?_⟩
    rcases h with ⟨hpath, push, -, hkey⟩ | ⟨hpath, query, hquery, hkey, -⟩
    · exact .inl ⟨hpath, hkey.imp And.left id⟩
    · refine .inr ⟨hpath, query, hquery, hkey, Classical.byContradiction fun hnone => hne ?_⟩
      exact get?_answer_of_unconfirmed (hw key) hpath huser hquery fun e he hconfirms =>
        hnone ⟨e, he, hconfirms⟩
  · intro hnameless
    rw [answer, exchanges]
    cases Route.ofPath? r.path with
    | none => exact ⟨rfl, rfl⟩
    | some route =>
      obtain ⟨response, hresponse⟩ := respond_of_nameless (s := s) hnameless route
      dsimp only
      rw [hresponse]
      exact ⟨rfl, rfl⟩
  · intro hmethod key
    refine Decidable.byContradiction fun hne => ?_
    obtain ⟨hpost, -⟩ := mayWrite_of_answer_ne (hw key) hne
    exact absurd (hmethod.symm.trans hpost) (by decide)
  · intro userId query hnames hpath hquery hmember key
    have huser := Request.user?_eq_some_iff.2 hnames
    have hroute : Route.ofPath? r.path = some .channelMode := by rw [hpath]; rfl
    refine get?_answer_of_unconfirmed (hw key) hpath huser hquery fun e he hconfirms => ?_
    rw [exchanges, hroute] at he
    obtain ⟨member, rfl⟩ := hconfirms
    exact (Api.awaits_respond s hroute huser hquery).trusts_run
      (upheld_until_confirms userId query.channelId) hmember _ he _ rfl ⟨member, rfl⟩

/-- A platform with one channel that has one member, and an empty store. -/
def smallWorld : World :=
  { World.new .memory with host := (Host.new.addUser "u" "ann").2.addMember "c" "u" }

/-- The member asks for encryption. -/
def switchRequest : Request :=
  ⟨"POST", "/api/v1/channel/encryption_method?chanID=c&method=p2p", some [0x75], []⟩

theorem authority_of_member :
    (∀ key, smallWorld.store.Spares key) ∧
      (answer (.new .default true) switchRequest smallWorld).2.store.get? (Key.mode "c")
        ≠ smallWorld.store.get? (Key.mode "c") ∧
      ∃ userId, switchRequest.Names userId ∧
        ∃ e ∈ exchanges (.new .default true) switchRequest smallWorld, Confirms userId "c" e := by
  have hw : ∀ key, smallWorld.store.Spares key := Store.spares_new false true
  have hchanged : (answer (.new .default true) switchRequest smallWorld).2.store.get? (Key.mode "c")
      ≠ smallWorld.store.get? (Key.mode "c") := by decide +kernel
  have hquery : ChannelQuery.ofQuery switchRequest.query = .ok ⟨"c", "p2p"⟩ := by rfl
  refine ⟨hw, hchanged, ?_⟩
  obtain ⟨userId, hnames, -, ⟨-, hkey⟩ | ⟨-, query, hquery', -, e, he, hconfirms⟩⟩ :=
    (authority (.new .default true) switchRequest hw).1 _ hchanged
  · rcases hkey with hkey | hkey
    · exact absurd hkey.symm (Key.pubkey_ne_mode userId "c")
    · exact absurd hkey.symm (Key.backup_ne_mode userId "c")
  · obtain rfl := Except.ok.inj (hquery'.symm.trans hquery)
    exact ⟨userId, hnames, e, he, hconfirms⟩

end Http

end SealedChannel
