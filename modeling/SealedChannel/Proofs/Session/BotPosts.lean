import SealedChannel.Proofs.Program.Deadline
import SealedChannel.Proofs.Session.PostFilter

/-!
# Where bots may post

To let the posts of bots pass, the filter has to look their authors up, and it does so before it
looks at the type of a post.  So the option lets more posts pass as long as the lookup goes through,
and one that fails holds up encrypted posts as well.

## What is here

* `Service.withBots` — the same service, where bots may post or may not.
* `Service.Allows`, `Service.FindsAuthor` — a post passes; its author, if looked up, is found.
* `Service.Decision`, `Service.decision` — the option makes no difference, or the lookup decides.
* `Service.allows_withBots` — what the option permits, and what it holds up.
-/

set_option autoImplicit false
namespace SealedChannel
namespace Service

open Program

variable {s : Service} {post : Post} {w : World}

/-- The same service, where bots may post or may not. -/
def withBots (s : Service) (bots : Bool) : Service :=
  { s with settings := { s.settings with botsMayPost := bots } }

/-- The filter lets a post pass. -/
def Allows (s : Service) (post : Post) (w : World) : Prop :=
  ((s.judge post).run none w).1 = .finished .allow

/-- The filter does not look the author of a post up, or it gets the account. -/
def FindsAuthor (s : Service) (post : Post) (w : World) : Prop :=
  ∀ e ∈ (s.judge post).transcript none w,
    e.call = .host (.getUser post.userId) → e.succeeded = true

/-! ## The calls behind the two verdicts -/

/-- A verdict begins with a read of the mode, whether or not bots may post. -/
theorem judge_withBots (hown : s.isOwnPost post = false) (bots : Bool) :
    (s.withBots bots).judge post = .call (.store s.limit (.get (Key.mode post.channelId)))
      fun answer => (s.withBots bots).judgeOn post (Mode.ofRead answer) := by
  refine (judge_eq (s := s.withBots bots) hown).trans ?_
  refine congrArg (Program.call _) (funext fun answer => ?_)
  cases answer <;> rfl

/-- After the read, which looks nobody up, the mode decides how a verdict goes on. -/
theorem exists_read (hown : s.isOwnPost post = false) (w : World) :
    ∃ (read : Exchange) (mode : Mode) (waited : Duration) (w' : World),
      read.call ≠ .host (.getUser post.userId) ∧ w'.host = w.host ∧ ∀ bots,
        (((s.withBots bots).judge post).run none w).1 =
          (((s.withBots bots).judgeOn post mode).runFrom none waited w').1 ∧
        ((s.withBots bots).judge post).transcript none w =
          read :: ((s.withBots bots).judgeOn post mode).transcriptFrom none waited w' := by
  let read : StoreCall := .get (Key.mode post.channelId)
  let answer : Except StoreError (Option Bytes) := (w.store.call (some s.limit) read).1
  refine ⟨⟨.store s.limit read, some answer⟩, Mode.ofRead answer,
    ⟨0⟩ + w.waitFor (.store s.limit read),
    { w with store := (w.store.call (some s.limit) read).2 }, ?_, rfl, fun bots => ⟨?_, ?_⟩⟩
  · rintro ⟨⟩
  · rw [run_fst, judge_withBots hown, runFrom_store]
  · rw [transcript, judge_withBots hown, transcriptFrom_store]

/-- The lookup of the author of a post, and the verdict that comes with it. -/
def lookUp (post : Post) : Program Verdict :=
  .call (.host (.getUser post.userId)) fun answer => .done (judgeAuthor post answer)

/-- How a lookup ends. -/
inductive LookedUp (post : Post) (waited : Duration) (w : World) : Prop where
  | found (author : User) (hauthor : w.host.user? post.userId = some author)
      (hrun : ((lookUp post).runFrom none waited w).1 = .finished (judgeAuthor post (.ok author)))
      (htranscript : (lookUp post).transcriptFrom none waited w
        = [⟨.host (.getUser post.userId), some (.ok author)⟩])
  | failed (e : HostError)
      (hrun : ((lookUp post).runFrom none waited w).1 = .finished (judgeAuthor post (.error e)))
      (htranscript : (lookUp post).transcriptFrom none waited w
        = [⟨.host (.getUser post.userId), some (.error e)⟩])
  | unanswered (hrun : ((lookUp post).runFrom none waited w).1.value? = none)
      (htranscript : (lookUp post).transcriptFrom none waited w
        = [⟨.host (.getUser post.userId), none⟩])

theorem lookedUp (post : Post) (waited : Duration) (w : World) : LookedUp post waited w := by
  rcases runFrom_call_cases none (.host (.getUser post.userId))
      (fun answer => .done (judgeAuthor post answer)) waited w with
    ⟨answer, w', hreact, hrun, htranscript⟩ | ⟨outcome, w', houtcome, -, hrun, htranscript⟩
  · cases answer with
    | error e => exact .failed e (congrArg Prod.fst hrun) htranscript
    | ok author =>
      refine .found author ?_ (congrArg Prod.fst hrun) htranscript
      rw [World.react] at hreact
      split at hreact
      · cases hreact
      · rename_i hcall
        cases hreact
        exact Host.user?_of_call hcall
  · exact .unanswered (by rw [lookUp, hrun, houtcome]) htranscript

/-- What the option has to do with the verdict on a post. -/
inductive Decision (s : Service) (post : Post) (w : World) : Prop where
  /-- The post passes in any case, and nobody is looked up. -/
  | free (allows : ∀ bots, (s.withBots bots).Allows post w)
      (finds : (s.withBots true).FindsAuthor post w)
  /-- The type of the post decides, or a lookup in the same state of the platform. -/
  | bound (read : Exchange) (waited : Duration) (w' : World)
      (hread : read.call ≠ .host (.getUser post.userId)) (hhost : w'.host = w.host)
      (hkind : (s.withBots false).Allows post w ↔ judgeKind post = .allow)
      (hrun : (((s.withBots true).judge post).run none w).1
        = ((lookUp post).runFrom none waited w').1)
      (htranscript : ((s.withBots true).judge post).transcript none w
        = read :: (lookUp post).transcriptFrom none waited w')

theorem decision (s : Service) (post : Post) (w : World) : s.Decision post w := by
  by_cases hown : s.isOwnPost post = true
  · have hjudge (bots : Bool) : (s.withBots bots).judge post = .done .allow := if_pos hown
    refine .free (fun bots => ?_) fun e he => ?_
    · rw [Allows, hjudge]
      rfl
    · rw [hjudge] at he
      cases he
  · rw [Bool.not_eq_true] at hown
    obtain ⟨read, mode, waited, w', hread, hhost, hgoes⟩ := exists_read hown w
    obtain ⟨hrun, htranscript⟩ := hgoes true
    cases mode with
    | plain =>
      refine .free (fun bots => (hgoes bots).1) fun e he => ?_
      rw [htranscript] at he
      obtain rfl := List.mem_singleton.1 he
      exact fun hcall => absurd hcall hread
    | p2p =>
      refine .bound read waited w' hread hhost ?_ hrun htranscript
      rw [Allows, (hgoes false).1]
      exact ⟨Outcome.finished.inj, congrArg Outcome.finished⟩

/-! ## What the option does -/

theorem judgeKind_eq_allow_iff : judgeKind post = .allow ↔ post.kind = encryptedKind := by
  rw [judgeKind]
  split <;> simp_all

/-- A lookup that is answered lets encrypted posts and those of bots pass. -/
theorem judgeAuthor_ok_eq_allow_iff {author : User} :
    judgeAuthor post (.ok author) = .allow ↔ judgeKind post = .allow ∨ author.isBot = true := by
  rw [judgeAuthor]
  split <;> simp_all

/-- **Letting bots post.**  Encrypted posts pass in every state where bots may not post.  The option
permits what passes without it and the posts of bots, unless a lookup of the author fails; a verdict
against a post that passes without it then tells why the lookup has failed. -/
theorem allows_withBots (s : Service) (post : Post) (w : World) :
    (post.kind = "custom_e2ee" → (s.withBots false).Allows post w) ∧
    ((s.withBots true).Allows post w ↔ (s.withBots true).FindsAuthor post w ∧
      ((s.withBots false).Allows post w ∨ w.host.SaysBot post.userId)) ∧
    ((s.withBots false).Allows post w → ∀ reason,
      (((s.withBots true).judge post).run none w).1 = .finished (.reject reason) →
      ∃ e : HostError, reason = "unable to check if user is a bot: " ++ e.message ∧
        ⟨.host (.getUser post.userId), some (.error e)⟩ ∈
          ((s.withBots true).judge post).transcript none w) := by
  cases s.decision post w with
  | free allows finds =>
    refine ⟨fun _ => allows false, ⟨fun _ => ⟨finds, .inl (allows false)⟩, fun _ => allows true⟩,
      fun _ reason hreason => ?_⟩
    rw [allows true] at hreason
    cases hreason
  | bound read waited w' hread hhost hkind hrun htranscript =>
    rw [hkind, Allows, FindsAuthor, hrun, htranscript, ← hhost]
    refine ⟨judgeKind_eq_allow_iff.2, ?_⟩
    cases lookedUp post waited w' with
    | found author hauthor hlook hexchanges =>
      have hsays : w'.host.SaysBot post.userId ↔ author.isBot = true := by
        simp [Host.SaysBot, hauthor]
      rw [hlook, hexchanges, hsays, Outcome.finished.injEq, judgeAuthor_ok_eq_allow_iff]
      refine ⟨⟨fun h => ⟨?_, h⟩, And.right⟩, fun hallow reason hreason => ?_⟩
      · simpa [Exchange.succeeded, Except.isOk, Except.toBool] using fun hcall => absurd hcall hread
      · rw [judgeAuthor_ok_eq_allow_iff.2 (.inl hallow)] at hreason
        cases hreason
    | failed e hlook hexchanges =>
      rw [hlook, hexchanges]
      refine ⟨⟨fun h => ?_, fun h => ?_⟩, fun _ reason hreason => ?_⟩
      · cases h
      · cases h.1 _ (.tail _ (.head _)) rfl
      · cases hreason
        exact ⟨e, rfl, by simp⟩
    | unanswered hlook hexchanges =>
      rw [hexchanges]
      refine ⟨⟨fun h => ?_, fun h => ?_⟩, fun _ reason hreason => ?_⟩
      · rw [h] at hlook
        cases hlook
      · cases h.1 _ (.tail _ (.head _)) rfl
      · rw [hreason] at hlook
        cases hlook

/-- A channel whose members encrypt, and a bot. -/
def sealedWorld : World :=
  { World.new (Store.memory.seed (Key.mode "c") Mode.p2p.encode) with
    host := Host.new.putUser ⟨"b", "bot", "", true⟩ }

/-- What the bot writes passes by the option alone. -/
theorem allows_withBots_of_bot :
    (Service.withBots (.new .default true) true).FindsAuthor (.draft "b" "c" "x") sealedWorld ∧
      ¬ (Service.withBots (.new .default true) false).Allows (.draft "b" "c" "x") sealedWorld ∧
      (Service.withBots (.new .default true) true).Allows (.draft "b" "c" "x") sealedWorld := by
  have hsucceeded : (((Service.withBots (.new .default true) true).judge
      (.draft "b" "c" "x")).transcript none sealedWorld).all Exchange.succeeded = true := by
    decide +kernel
  have hfinds : (Service.withBots (.new .default true) true).FindsAuthor (.draft "b" "c" "x")
      sealedWorld := fun e he _ => List.all_eq_true.1 hsucceeded e he
  refine ⟨hfinds, ?_, (allows_withBots _ _ _).2.1.2 ⟨hfinds, .inr ⟨⟨"b", "bot", "", true⟩, ?_⟩⟩⟩
  · unfold Allows
    decide +kernel
  · decide +kernel

/-- An encrypted post by somebody without an account. -/
def strayPost : Post :=
  { Post.draft "u" "c" "x" with kind := "custom_e2ee" }

/-- The option does not only permit more: a lookup that fails holds up an encrypted post. -/
theorem strayPost_rejected :
    strayPost.kind = "custom_e2ee" ∧
      (Service.withBots (.new .default true) false).Allows strayPost sealedWorld ∧
      ¬ (Service.withBots (.new .default true) true).Allows strayPost sealedWorld ∧
      (((Service.withBots (.new .default true) true).judge strayPost).run none sealedWorld).1
        = .finished (.reject "unable to check if user is a bot: not found: user u") := by
  unfold Allows
  refine ⟨rfl, ?_, ?_, ?_⟩ <;> decide +kernel

end Service
end SealedChannel
