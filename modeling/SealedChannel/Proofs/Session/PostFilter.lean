import SealedChannel.Proofs.Chat.Call
import SealedChannel.Proofs.Session.Account
import SealedChannel.Proofs.Session.Modes

/-!
# What the filter lets pass

After any session, with changes of the mode that failed, came too late, were not needed, or
succeeded in a request that failed later on, the filter rejects exactly the posts that are not
encrypted, on the channels whose last settled mode asks for it, except those of the service and,
where bots may post, those of bots.

## What is here

* `Service.rejects_iff` — the verdict on a post, if the calls behind it succeed.
* `Session.judge_after_session` — the verdict after a session, by what the session has settled.
-/

set_option autoImplicit false
namespace SealedChannel

/-! ## Accounts of bots -/

/-- The platform says that a user is a bot. -/
def Host.SaysBot (h : Host) (userId : String) : Prop :=
  ∃ user, h.user? userId = some user ∧ user.isBot = true

/-! ## Verdicts -/

/-- A post may not be created. -/
def Verdict.IsReject (verdict : Verdict) : Prop :=
  ∃ reason, verdict = .reject reason

@[simp]
theorem Verdict.not_isReject_allow : ¬ Verdict.allow.IsReject := by
  rintro ⟨reason, ⟨⟩⟩

@[simp]
theorem Verdict.isReject_reject (reason : String) : (Verdict.reject reason).IsReject :=
  ⟨reason, rfl⟩

namespace Service

open Program

variable {s : Service} {post : Post} {w : World}

/-- The verdict on a post by its author's account, where bots may post. -/
def judgeAuthor (post : Post) : Except HostError User → Verdict
  | .ok author => if author.isBot then .allow else judgeKind post
  | .error e => .reject ("unable to check if user is a bot: " ++ e.message)

/-- The verdict on a post that is not the service's own, by the mode of its channel. -/
def judgeOn (s : Service) (post : Post) : Mode → Program Verdict
  | .plain => .done .allow
  | .p2p =>
    if s.settings.botsMayPost then
      .call (.host (.getUser post.userId)) fun answer => .done (judgeAuthor post answer)
    else .done (judgeKind post)

/-- The calls behind a verdict on a post that is not the service's own. -/
theorem judge_eq (hown : s.isOwnPost post = false) : s.judge post =
    .call (.store s.limit (.get (Key.mode post.channelId))) fun
      | .error _ => s.judgeOn post .plain
      | .ok raw => s.judgeOn post (Mode.current raw) := by
  rw [judge, hown, if_neg Bool.false_ne_true]
  refine congrArg (Program.call _) (funext fun answer => ?_)
  cases answer with
  | error e => rfl
  | ok raw =>
    change Program.andThen (.done (Mode.current raw)) _ = _
    rw [andThen]
    dsimp only
    cases Mode.current raw with
    | plain => rfl
    | p2p =>
      rw [judgeOn]
      dsimp only
      split
      · refine congrArg (Program.call _) (funext fun answer => ?_)
        cases answer with
        | error e => rfl
        | ok author => rfl
      · rfl

/-- The own posts of a service with an account are those by this account. -/
theorem isOwnPost_eq_true_iff (hid : s.botId ≠ some "") :
    s.isOwnPost post = true ↔ s.botId = some post.userId := by
  rw [isOwnPost, botUserId]
  cases hbot : s.botId with
  | none => simp
  | some id =>
    have hne : id ≠ "" := fun hempty => hid (by rw [hbot, hempty])
    rw [Option.getD_some, Bool.and_eq_true, bne_iff_ne, beq_iff_eq, Option.some_inj]
    exact ⟨fun h => h.2.symm, fun h => ⟨hne, h.symm⟩⟩

theorem judgeKind_isReject_iff : (judgeKind post).IsReject ↔ post.kind ≠ encryptedKind := by
  rw [judgeKind]
  split <;> simp_all

/-- On a channel with encryption, a post that is not encrypted is refused, unless it is by a bot
where bots may post. -/
theorem rejects_iff_of_p2p {waited : Duration}
    (hcalls : ∀ e ∈ (s.judgeOn post .p2p).transcriptFrom none waited w, e.succeeded = true) :
    ∃ verdict, ((s.judgeOn post .p2p).runFrom none waited w).1 = .finished verdict ∧
      (verdict.IsReject ↔ post.kind ≠ encryptedKind ∧
        ¬ (s.settings.botsMayPost = true ∧ w.host.SaysBot post.userId)) := by
  rw [judgeOn] at hcalls ⊢
  split at hcalls
  · rename_i hbots
    obtain ⟨answer, w', hreact, hsucceeded, hrun, -⟩ := runFrom_of_succeeded hcalls
    rw [if_pos hbots, hrun]
    cases answer with
    | error e => cases hsucceeded
    | ok author =>
      have hauthor : w.host.user? post.userId = some author := by
        rw [World.react] at hreact
        split at hreact
        · cases hreact
        · rename_i hcall
          cases hreact
          exact Host.user?_of_call hcall
      have hsays : w.host.SaysBot post.userId ↔ author.isBot = true := by
        simp [Host.SaysBot, hauthor]
      refine ⟨_, rfl, ?_⟩
      rw [judgeAuthor, hsays]
      cases author.isBot with
      | true => simp [hbots]
      | false => simpa using judgeKind_isReject_iff
  · rename_i hbots
    rw [if_neg hbots]
    exact ⟨_, rfl, judgeKind_isReject_iff.trans (by simp [hbots])⟩

/-- **The filter.**  If the calls behind it succeed, the verdict on a post is a refusal if and only
if the channel asks for encryption, the post is not an encrypted one, it is not the service's own,
and it is not by a bot where bots may post. -/
theorem rejects_iff (hid : s.botId ≠ some "")
    (hcalls : ∀ e ∈ (s.judge post).transcript none w, e.succeeded = true) :
    ∃ verdict, ((s.judge post).run none w).1 = .finished verdict ∧
      (verdict.IsReject ↔ w.store.modeOf post.channelId = .p2p ∧ post.kind ≠ encryptedKind ∧
        s.botId ≠ some post.userId ∧
        ¬ (s.settings.botsMayPost = true ∧ w.host.SaysBot post.userId)) := by
  have hownIff : s.isOwnPost post = true ↔ s.botId = some post.userId :=
    isOwnPost_eq_true_iff hid
  by_cases hown : s.isOwnPost post = true
  · have hjudge : s.judge post = .done .allow := by
      rw [judge, hown]
      rfl
    rw [hjudge]
    exact ⟨.allow, rfl, by simp [hownIff.1 hown]⟩
  · have hother : s.botId ≠ some post.userId := fun h => hown (hownIff.2 h)
    rw [Bool.not_eq_true] at hown
    rw [transcript, judge_eq hown] at hcalls
    rw [run_fst, judge_eq hown]
    obtain ⟨answer, w', hreact, hsucceeded, hrun, hrest⟩ := runFrom_of_succeeded hcalls
    rw [hrun]
    cases answer with
    | error e => cases hsucceeded
    | ok raw =>
      have hmode : w.store.modeOf post.channelId = Mode.current raw := by
        rw [Store.modeOf, Store.call_get (World.react_store hreact).1]
      have hhost : w'.host = w.host := World.host_react (fun call => by rintro ⟨⟩) hreact
      rw [hmode, ← hhost]
      dsimp only at hrest ⊢
      cases hcurrent : Mode.current raw with
      | plain => exact ⟨.allow, rfl, by simp⟩
      | p2p =>
        rw [hcurrent] at hrest
        obtain ⟨verdict, hverdict, hreject⟩ := rejects_iff_of_p2p hrest
        exact ⟨verdict, hverdict, hreject.trans (by simp [hother])⟩

end Service

/-! ## Sessions -/

namespace Session

/-- **The filter after a session.**  A fresh service has met any demands, and nobody else has
written the mode of a channel.  If the calls behind the next verdict on a post succeed, then the
verdict is a refusal if and only if the mode that was settled last, or the first one if none was
settled, asks for encryption, the post is not an encrypted one, its author is not the account that
the first successful activation obtained, and it is not by a bot where bots may post.  As long as no
activation has succeeded, no post at all counts as the service's own. -/
theorem judge_after_session {service : Service} {w : World} {steps : List Step} {post : Post}
    (hfresh : service.botId = none) (hw : w.store.Spares (Key.mode post.channelId))
    (hsteps : ∀ change, .change change ∈ steps → change.Spares (Key.mode post.channelId)) :
    ((∀ e ∈ (((mk service w).run steps).service.judge post).transcript none
        ((mk service w).run steps).world, e.succeeded = true) →
      ∃ verdict, ((((mk service w).run steps).service.judge post).run none
        ((mk service w).run steps).world).1 = .finished verdict ∧
      (verdict.IsReject ↔
        ((mk service w).history (settles? post.channelId) steps).getLastD
          (w.store.modeOf post.channelId) = .p2p ∧
        post.kind ≠ "custom_e2ee" ∧
        ((mk service w).history activates? steps).head? ≠ some post.userId ∧
        ¬ (service.settings.botsMayPost = true ∧
          ((mk service w).run steps).world.host.SaysBot post.userId))) ∧
    ((mk service w).history activates? steps = [] →
      ∀ other : Post, ((mk service w).run steps).service.isOwnPost other = false) := by
  obtain ⟨hservice, hids⟩ := service_run (mk service w) steps
  have hbot : ((mk service w).run steps).service.botId
      = ((mk service w).history activates? steps).head? := by
    rw [hservice, hfresh, Option.none_or]
  have hid : ((mk service w).run steps).service.botId ≠ some "" := by
    intro hempty
    rw [hbot] at hempty
    exact hids "" (List.mem_of_head? hempty) rfl
  constructor
  · intro hcalls
    obtain ⟨verdict, hverdict, hreject⟩ := Service.rejects_iff hid hcalls
    refine ⟨verdict, hverdict, ?_⟩
    rw [hreject, modeOf_run hw hsteps, hbot, hservice]
    rfl
  · intro hnone other
    rw [← Bool.not_eq_true, Service.isOwnPost_eq_true_iff hid, hbot, hnone]
    rintro ⟨⟩

/-- A channel with one member, on a platform that refuses posts. -/
def quietWorld : World :=
  { World.new .memory with
    host := { (Host.new.addUser "u" "ann").2.addMember "c" "u" with refusePosts := true } }

/-- The member asks for encryption; the announcement fails, and the mode is settled nevertheless. -/
def quietSession : List Step :=
  [.demand [] .activate,
    .demand [] (.answer
      ⟨"POST", "/api/v1/channel/encryption_method?chanID=c&method=p2p", some [0x75], []⟩),
    .change (.write ⟨"x", [1]⟩), .demand [] (.changeMode "v" "c" .plain)]

theorem judge_after_quietSession :
    ((Service.new .default true).botId = none ∧
      quietWorld.store.Spares (Key.mode (Post.draft "u" "c" "hello").channelId) ∧
      ∀ change, .change change ∈ quietSession →
        change.Spares (Key.mode (Post.draft "u" "c" "hello").channelId)) ∧
    ∃ verdict, verdict.IsReject ∧
      ((((mk (.new .default true) quietWorld).run quietSession).service.judge
        (.draft "u" "c" "hello")).run none
          ((mk (.new .default true) quietWorld).run quietSession).world).1 = .finished verdict := by
  have hw : quietWorld.store.Spares (Key.mode (Post.draft "u" "c" "hello").channelId) :=
    Store.spares_new false true _
  have hsteps : ∀ change, .change change ∈ quietSession →
      change.Spares (Key.mode (Post.draft "u" "c" "hello").channelId) := by
    rintro change hchange write rfl
    obtain rfl : write = ⟨"x", [1]⟩ := by simpa [quietSession] using hchange
    decide
  have hcalls : ((((mk (.new .default true) quietWorld).run quietSession).service.judge
      (.draft "u" "c" "hello")).transcript none
        ((mk (.new .default true) quietWorld).run quietSession).world).all Exchange.succeeded
          = true := by
    decide +kernel
  obtain ⟨verdict, hverdict, hreject⟩ :=
    (judge_after_session rfl hw hsteps).1 (List.all_eq_true.1 hcalls)
  refine ⟨⟨rfl, hw, hsteps⟩, verdict, hreject.2 ⟨?_, ?_, ?_, ?_⟩, hverdict⟩
  · decide +kernel
  · decide
  · decide +kernel
  · rintro ⟨hbots, -⟩
    exact absurd hbots (by decide)

end Session

end SealedChannel
