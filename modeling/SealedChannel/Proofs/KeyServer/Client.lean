import SealedChannel.Proofs.KeyServer.Answer
import SealedChannel.Proofs.KeyServer.ShortId
import SealedChannel.Proofs.Program.Responder
import SealedChannel.Proofs.Text.Form
import SealedChannel.Service.Keys

/-!
# Retrieving a key

A key is retrieved in two requests: one for the index of a mail address, and one for the key of the
first usable record there.  Whatever a key server answers, the calls made and the result follow from
the answers to these two; and since the same error may come of either, what is shown is not only
what each answer leads to, but also what each result comes from.

## What is here

* `pairs_lookupTarget` — what a server reads of a request.
* `Client.value_lookup`, `Client.value_firstUsableKeyId`, `Client.value_key` — one request.
* `Client.calls_fetch_of_selects`, `Client.calls_fetch_of_not_selects`,
  `Client.value_fetch_eq_ok_iff`, `Client.value_fetch_eq_error_iff` — both requests.
* `Client.Retrieves`, `Client.fetch_retrieves` — the same, result by result.
* `Service.value_gpgKeyOf_of_ok`, `Service.calls_gpgKeyOf_of_ok` — the key of a user.
* `Client.key_retrieval` — all of this together, and in a world that answers.
-/

set_option autoImplicit false
namespace SealedChannel

namespace KeyServer

/-! ## What a server reads -/

/-- A look-up asks for the pairs that it was given. -/
theorem pairs_lookupTarget (address : String) (pairs : List (String × String)) :
    (lookupTarget address pairs).pairs =
      (Http.Target.ofUrl (baseUrl address ++ "/pks/lookup")).pairs ++ pairs :=
  Http.Target.pairs_withPairs _ pairs

namespace Client

open Program

/-- Where the index for a mail address is asked for. -/
def indexTarget (address email : String) : Http.Target :=
  lookupTarget address [("op", "index"), ("options", "mr"), ("search", email)]

/-- Where the key with an id is asked for. -/
def keyTarget (address keyId : String) : Http.Target :=
  lookupTarget address [("op", "get"), ("search", "0x" ++ shortKeyId keyId)]

variable {r : Responder} {address email keyId text : String} {pairs : List (String × String)}
  {l : Listing} {e : Error}

/-! ## Single requests -/

/-- A look-up is one request. -/
theorem run_lookup : (lookup address pairs).run =
    told <$> perform (.fetch (lookupTarget address pairs)) := by
  rw [lookup, ExceptT.run_bind, ExceptT.run_lift, bind_map_left, ← bind_pure_comp]
  refine congrArg _ (funext fun answer => ?_)
  rcases answer with reason | reply
  · rfl
  · rw [told]
    dsimp only
    split
    · rfl
    · split <;> rfl

@[simp]
theorem value_lookup :
    (lookup address pairs).run.value r = told (r (.fetch (lookupTarget address pairs))) := by
  rw [run_lookup, value_map, value_perform]

@[simp]
theorem calls_lookup :
    (lookup address pairs).run.calls r = [.fetch (lookupTarget address pairs)] := by
  rw [run_lookup, calls_map, calls_perform]

theorem index_eq : index address email =
    (lookup address [("op", "index"), ("options", "mr"), ("search", email)] >>= fun body =>
      ExceptT.mk (pure (.ok ((body.map Index.parse).getD [])))) := by
  rw [index]
  refine congrArg _ (funext fun body => ?_)
  cases body <;> rfl

theorem key_eq : key address keyId =
    (lookup address [("op", "get"), ("search", "0x" ++ shortKeyId keyId)] >>= fun body =>
      ExceptT.mk (pure (body.elim (.error .noValidKey) Armor.extract))) := by
  rw [key]
  refine congrArg _ (funext fun body => ?_)
  cases body <;> rfl

theorem value_firstUsableKeyId : (firstUsableKeyId address email).run.value r =
    selected (r (.fetch (indexTarget address email))) := by
  rw [firstUsableKeyId, index_eq, value_run_bind, value_run_bind, value_lookup, bind_assoc]
  rfl

theorem calls_firstUsableKeyId :
    (firstUsableKeyId address email).run.calls r = [.fetch (indexTarget address email)] := by
  rw [firstUsableKeyId, calls_run_bind_pure, index_eq, calls_run_bind_pure, calls_lookup]
  rfl

theorem value_key :
    (key address keyId).run.value r = delivered (r (.fetch (keyTarget address keyId))) := by
  rw [key_eq, value_run_bind, value_lookup]
  rfl

theorem calls_key : (key address keyId).run.calls r = [.fetch (keyTarget address keyId)] := by
  rw [key_eq, calls_run_bind_pure, calls_lookup]
  rfl

/-! ## Both requests -/

theorem value_fetch : (fetch address email).run.value r =
    selected (r (.fetch (indexTarget address email))) >>= fun keyId =>
      delivered (r (.fetch (keyTarget address keyId))) := by
  rw [fetch, value_run_bind, value_firstUsableKeyId]
  exact congrArg _ (funext fun keyId => value_key)

/-- If a record is selected, its key is asked for. -/
theorem calls_fetch_of_selects (h : Selects (r (.fetch (indexTarget address email))) l) :
    (fetch address email).run.calls r =
      [.fetch (indexTarget address email), .fetch (keyTarget address l.keyId)] := by
  have hselected : (firstUsableKeyId address email).run.value r = .ok l.keyId := by
    rw [value_firstUsableKeyId, selected_eq_ok_iff]
    exact ⟨l, h, rfl⟩
  rw [fetch, calls_run_bind_of_ok hselected, calls_firstUsableKeyId, calls_key,
    List.singleton_append]

/-- If no record is selected, nothing more is asked for. -/
theorem calls_fetch_of_not_selects (h : ∀ l, ¬ Selects (r (.fetch (indexTarget address email))) l) :
    (fetch address email).run.calls r = [.fetch (indexTarget address email)] := by
  cases hvalue : (firstUsableKeyId address email).run.value r with
  | error e => rw [fetch, calls_run_bind_of_error hvalue, calls_firstUsableKeyId]
  | ok keyId =>
    rw [value_firstUsableKeyId, selected_eq_ok_iff] at hvalue
    obtain ⟨l, hl, -⟩ := hvalue
    exact absurd hl (h l)

/-- The last request was refused if it was the first one, or if it was the second. -/
theorem refused_last_iff :
    (∃ target, ((fetch address email).run.calls r).getLast? = some (.fetch target) ∧
      Refused (r (.fetch target)) e) ↔
    Refused (r (.fetch (indexTarget address email))) e ∨
      ∃ l, Selects (r (.fetch (indexTarget address email))) l ∧
        Refused (r (.fetch (keyTarget address l.keyId))) e := by
  by_cases hselects : ∃ l, Selects (r (.fetch (indexTarget address email))) l
  · obtain ⟨l, hl⟩ := hselects
    rw [calls_fetch_of_selects hl]
    constructor
    · rintro ⟨target, htarget, he⟩
      obtain rfl : keyTarget address l.keyId = target := by simpa using htarget
      exact .inr ⟨l, hl, he⟩
    · rintro (he | ⟨l', hl', he⟩)
      · exact absurd he hl.not_refused
      · rw [← hl.keyId_eq hl'] at he
        exact ⟨_, rfl, he⟩
  · rw [calls_fetch_of_not_selects (not_exists.1 hselects)]
    constructor
    · rintro ⟨target, htarget, he⟩
      obtain rfl : indexTarget address email = target := by simpa using htarget
      exact .inl he
    · rintro (he | ⟨l, hl, -⟩)
      · exact ⟨_, rfl, he⟩
      · exact absurd ⟨l, hl⟩ hselects

/-- The second request was answered with a reply. -/
def Delivers (r : Responder) (address email : String) (reply : Reply) : Prop :=
  ∃ l, Selects (r (.fetch (indexTarget address email))) l ∧
    r (.fetch (keyTarget address l.keyId)) = .ok reply

theorem value_fetch_eq_ok_iff : (fetch address email).run.value r = .ok text ↔
    ∃ reply, Delivers r address email reply ∧ reply.Succeeded ∧
      Armor.extract reply.text = .ok text := by
  rw [value_fetch, bind_eq_ok_iff]
  simp only [selected_eq_ok_iff, delivered_eq_ok_iff, exists_exists_and_eq_and, Delivers]
  constructor
  · rintro ⟨l, hl, reply, hreply, hblock⟩
    exact ⟨reply, ⟨l, hl, hreply⟩, hblock⟩
  · rintro ⟨reply, ⟨l, hl, hreply⟩, hblock⟩
    exact ⟨l, hl, reply, hreply, hblock⟩

/-- A retrieval fails because the last request was refused, because there is no key, or because
there is no block. -/
theorem value_fetch_eq_error_iff : (fetch address email).run.value r = .error e ↔
    (∃ target, ((fetch address email).run.calls r).getLast? = some (.fetch target) ∧
      Refused (r (.fetch target)) e) ∨
    (e = .noValidKey ∧ (SelectsNone (r (.fetch (indexTarget address email))) ∨
      ∃ reply, Delivers r address email reply ∧ reply.status = 404)) ∨
    (e = .invalidFormat ∧ ∃ reply, Delivers r address email reply ∧ reply.Succeeded ∧
      ∀ block, Armor.extract reply.text ≠ .ok block) := by
  rw [value_fetch, bind_eq_error_iff, refused_last_iff]
  simp only [selected_eq_ok_iff, selected_eq_error_iff, delivered_eq_error_iff,
    exists_exists_and_eq_and, Delivers]
  constructor
  · rintro ((he | ⟨rfl, hnone⟩) | ⟨l, hl, he | ⟨reply, hreply, ⟨rfl, hmissing⟩ | ⟨rfl, hblock⟩⟩⟩)
    · exact .inl (.inl he)
    · exact .inr (.inl ⟨rfl, .inl hnone⟩)
    · exact .inl (.inr ⟨l, hl, he⟩)
    · exact .inr (.inl ⟨rfl, .inr ⟨reply, ⟨l, hl, hreply⟩, hmissing⟩⟩)
    · exact .inr (.inr ⟨rfl, reply, ⟨l, hl, hreply⟩, hblock⟩)
  · rintro ((he | ⟨l, hl, he⟩) | ⟨rfl, hnone | ⟨reply, ⟨l, hl, hreply⟩, hmissing⟩⟩ |
      ⟨rfl, reply, ⟨l, hl, hreply⟩, hblock⟩)
    · exact .inl (.inl he)
    · exact .inr ⟨l, hl, .inl he⟩
    · exact .inl (.inr ⟨rfl, hnone⟩)
    · exact .inr ⟨l, hl, .inr ⟨reply, hreply, .inl ⟨rfl, hmissing⟩⟩⟩
    · exact .inr ⟨l, hl, .inr ⟨reply, hreply, .inr ⟨rfl, hblock⟩⟩⟩

/-- How a key is retrieved from a key server: by which calls, and with what result. -/
structure Retrieves (r : Responder) (address email : String) (calls : List Call)
    (result : Except Error String) : Prop where
  /-- The index is asked for, and then the key of the first usable record. -/
  selects : ∀ l, Selects (r (.fetch (indexTarget address email))) l →
    calls = [.fetch (indexTarget address email), .fetch (keyTarget address l.keyId)]
  /-- Without a usable record, nothing more is asked for. -/
  selectsNone : (∀ l, ¬ Selects (r (.fetch (indexTarget address email))) l) →
    calls = [.fetch (indexTarget address email)]
  ok : ∀ text, result = .ok text ↔ ∃ reply, Delivers r address email reply ∧ reply.Succeeded ∧
    Armor.extract reply.text = .ok text
  noValidKey : result = .error .noValidKey ↔
    SelectsNone (r (.fetch (indexTarget address email))) ∨
      ∃ reply, Delivers r address email reply ∧ reply.status = 404
  invalidFormat : result = .error .invalidFormat ↔ ∃ reply, Delivers r address email reply ∧
    reply.Succeeded ∧ ∀ block, Armor.extract reply.text ≠ .ok block
  status : ∀ status, result = .error (.status status) ↔ ∃ target,
    calls.getLast? = some (.fetch target) ∧ ∃ reply, r (.fetch target) = .ok reply ∧
      reply.status = status ∧ ¬ reply.Succeeded ∧ status ≠ 404
  transport : ∀ reason, result = .error (.transport reason) ↔ ∃ target,
    calls.getLast? = some (.fetch target) ∧ r (.fetch target) = .error reason

theorem fetch_retrieves (r : Responder) (address email : String) :
    Retrieves r address email ((fetch address email).run.calls r)
      ((fetch address email).run.value r) where
  selects _ h := calls_fetch_of_selects h
  selectsNone h := calls_fetch_of_not_selects h
  ok _ := value_fetch_eq_ok_iff
  noValidKey := by simp [value_fetch_eq_error_iff]
  invalidFormat := by simp [value_fetch_eq_error_iff]
  status _ := by simp [value_fetch_eq_error_iff]
  transport _ := by simp [value_fetch_eq_error_iff]

end Client

end KeyServer

/-! ## The key of a user -/

namespace Service

open Program

variable {r : Responder} {s : Service} {userId : String}

@[simp]
theorem value_ask (c : HostCall) : (ask c).run.value r = (r (.host c)).mapError .host := by
  rw [ask, value_run_wrap, value_run_host]

@[simp]
theorem calls_ask (c : HostCall) : (ask c).run.calls r = [.host c] := by
  rw [ask, calls_run_wrap, calls_run_host]

theorem value_gpgKeyOf_of_ok {user : User} (h : r (.host (.getUser userId)) = .ok user) :
    (s.gpgKeyOf userId).run.value r =
      ((KeyServer.Client.fetch s.settings.keyServer user.email).run.value r).mapError
        (.keyServer user.email) := by
  rw [gpgKeyOf, value_run_bind, value_ask, h]
  exact value_run_wrap _ _

theorem calls_gpgKeyOf_of_ok {user : User} (h : r (.host (.getUser userId)) = .ok user) :
    (s.gpgKeyOf userId).run.calls r = .host (.getUser userId) ::
      (KeyServer.Client.fetch s.settings.keyServer user.email).run.calls r := by
  have hask : (ask (.getUser userId)).run.value r = .ok user := by
    rw [value_ask, h]
    rfl
  rw [gpgKeyOf, calls_run_bind_of_ok hask, calls_ask, calls_run_wrap, List.singleton_append]

theorem value_gpgKeyOf_of_error {e : HostError} (h : r (.host (.getUser userId)) = .error e) :
    (s.gpgKeyOf userId).run.value r = .error (.host e) := by
  rw [gpgKeyOf, value_run_bind, value_ask, h]
  rfl

theorem calls_gpgKeyOf_of_error {e : HostError} (h : r (.host (.getUser userId)) = .error e) :
    (s.gpgKeyOf userId).run.calls r = [.host (.getUser userId)] := by
  have hask : (ask (.getUser userId)).run.value r = .error (.host e) := by
    rw [value_ask, h]
    rfl
  rw [gpgKeyOf, calls_run_bind_of_error hask, calls_ask]

end Service

namespace KeyServer
namespace Client

/-- **Key retrieval.**  Against every responder, a key is retrieved by the requests and with the
result that its answers call for.  A server reads of each request the pairs that were asked for; of
an id, it is asked for an end, the last eight characters if the id is ASCII.  The key of a user is
the one for the user's mail address, and an error names that address.  In a world that
answers as the responder does, that is what a run comes to. -/
theorem key_retrieval (r : Responder) :
    (∀ address email, Retrieves r address email ((fetch address email).run.calls r)
      ((fetch address email).run.value r)) ∧
    (∀ address pairs, (lookupTarget address pairs).pairs =
      (Http.Target.ofUrl (baseUrl address ++ "/pks/lookup")).pairs ++ pairs) ∧
    (∀ id : String, (shortKeyId id).toList <:+ id.toList ∧
      ((∀ c ∈ id.toList, c.toNat < 0x80) → (shortKeyId id).toList =
        id.toList.drop (id.toList.length - min 8 id.toList.length))) ∧
    (∀ (s : Service) (userId : String),
      (∀ user, r (.host (.getUser userId)) = .ok user →
        (s.gpgKeyOf userId).run.calls r = .host (.getUser userId) ::
          (fetch s.settings.keyServer user.email).run.calls r ∧
        (s.gpgKeyOf userId).run.value r =
          ((fetch s.settings.keyServer user.email).run.value r).mapError
            (.keyServer user.email)) ∧
      ∀ e, r (.host (.getUser userId)) = .error e →
        (s.gpgKeyOf userId).run.calls r = [.host (.getUser userId)] ∧
        (s.gpgKeyOf userId).run.value r = .error (.host e)) ∧
    ∀ (s : Service) (userId : String) (w : World),
      w.Answers r ((s.gpgKeyOf userId).run.calls r) →
        ((s.gpgKeyOf userId).run.run none w).1 = .finished ((s.gpgKeyOf userId).run.value r) := by
  refine ⟨fetch_retrieves r, pairs_lookupTarget, ?_, ?_, ?_⟩
  · intro id
    exact ⟨shortKeyId_suffix id, shortKeyId_of_ascii⟩
  · intro s userId
    constructor
    · intro user huser
      exact ⟨Service.calls_gpgKeyOf_of_ok huser, Service.value_gpgKeyOf_of_ok huser⟩
    · intro e he
      exact ⟨Service.calls_gpgKeyOf_of_error he, Service.value_gpgKeyOf_of_error he⟩
  · intro s userId w hw
    exact (Program.run_of_answers hw).1

/-- An index with a revoked record before a usable one. -/
def indexReply : Reply :=
  ⟨200, .ofText "pub:AAAA:1:2048:::r\npub:0123456789ABCDEF:1:4096:::\n"⟩

/-- The usable record. -/
def usableListing : Listing :=
  ⟨"0123456789ABCDEF", some .rsaEncryptOrSign, some 4096, none, none, false, false, false⟩

/-- A key block, and a page that holds it. -/
def keyBlock : String :=
  "-----BEGIN PGP PUBLIC KEY BLOCK-----mQEN-----END PGP PUBLIC KEY BLOCK-----"

def keyReply : Reply :=
  ⟨200, .ofText ("<pre>" ++ keyBlock ++ "</pre>")⟩

/-- A user of the platform. -/
def ada : User :=
  ⟨"u", "ada", "ada@example.org", false⟩

/-- A platform with one user, and a key server with one key. -/
def oneKey : Responder
  | .fetch target =>
    .ok (if target = indexTarget Settings.default.keyServer ada.email then indexReply else keyReply)
  | .host (.getUser _) => .ok ada
  | .host _ => .error (.failed "unexpected")
  | .store limit _ => .error (.timeout limit)
  | .acquire _ => ()
  | .release _ => ()

/-- A world that answers so. -/
def oneKeyWorld : World :=
  { World.new .memory with
    host := { Host.new with users := Table.empty.insert "u" ada }
    keyServer := ⟨none, [indexReply, keyReply], []⟩ }

theorem key_retrieval_of_oneKey :
    (fetch Settings.default.keyServer ada.email).run.calls oneKey =
      [.fetch (indexTarget Settings.default.keyServer ada.email),
        .fetch (lookupTarget Settings.default.keyServer
          [("op", "get"), ("search", "0x89ABCDEF")])] ∧
    (((Service.new .default true).gpgKeyOf "u").run.run none oneKeyWorld).1 =
      .finished (.ok keyBlock) := by
  obtain ⟨hfetch, -, -, hservice, hrun⟩ := key_retrieval oneKey
  have hindex : oneKey (.fetch (indexTarget Settings.default.keyServer ada.email)) =
      .ok indexReply :=
    congrArg Except.ok (if_pos rfl)
  have hkey : oneKey (.fetch (keyTarget Settings.default.keyServer usableListing.keyId)) =
      .ok keyReply := by
    refine congrArg Except.ok (if_neg ?_)
    decide +kernel
  have hselects : Selects (oneKey (.fetch (indexTarget Settings.default.keyServer ada.email)))
      usableListing := by
    refine ⟨indexReply, [{ usableListing with
      keyId := "AAAA", keyLength := some 2048, revoked := true }], [], hindex, ⟨?_, ?_⟩, ?_, ?_, ?_⟩
    all_goals decide +kernel
  have hshort : shortKeyId usableListing.keyId = "89ABCDEF" := by decide +kernel
  have hcalls := (hfetch Settings.default.keyServer ada.email).selects _ hselects
  have hvalue : (fetch Settings.default.keyServer ada.email).run.value oneKey = .ok keyBlock := by
    refine ((hfetch _ _).ok keyBlock).2 ⟨keyReply, ⟨usableListing, hselects, hkey⟩, ⟨?_, ?_⟩, ?_⟩
    all_goals decide +kernel
  have haddress : (Service.new .default true).settings.keyServer = Settings.default.keyServer := rfl
  obtain ⟨hcalls', hvalue'⟩ := (hservice (.new .default true) "u").1 ada rfl
  rw [haddress] at hcalls' hvalue'
  refine ⟨?_, ?_⟩
  · rw [hcalls, keyTarget, hshort]
    rfl
  · rw [hrun (.new .default true) "u" oneKeyWorld, hvalue', hvalue]
    · rfl
    · rw [hcalls', hcalls]
      refine .cons rfl ?_
      apply World.Answers.cons
      · rw [hindex]
        rfl
      apply World.Answers.cons
      · rw [hkey]
        rfl
      exact .nil _

end Client

end KeyServer

end SealedChannel
