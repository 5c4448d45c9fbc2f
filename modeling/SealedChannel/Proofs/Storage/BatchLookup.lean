import SealedChannel.Proofs.Program.Transcript
import SealedChannel.Storage.PublicKeys

/-!
# Looking up several key pairs

The key pairs of several users are looked up one after another, and the first lookup that fails
ends it.  A lookup changes nothing but the number of reads, so what it answers does not depend on
the lookups before it.

## What is here

* `PublicKeys.ofRead`, `PublicKeys.lookup` — what a read stands for, and what one lookup answers.
* `PublicKeys.run_get`, `PublicKeys.run_getMany` — both kinds of lookup, run.
* `PublicKeys.IsBatch` — several lookups put together, with the rules for it.
* `PublicKeys.batch_lookup` — looking up several users agrees with looking them up one by one.
-/

set_option autoImplicit false
namespace SealedChannel

/-! ## Reads -/

/-- A world in which the store has been read some number of times. -/
def World.withGets (w : World) (gets : Nat) : World :=
  { w with store := { w.store with gets } }

namespace Store

/-- A read leaves the store as it was, but for the number of reads. -/
theorem exists_call_get_eq (s : Store) (limit : Option Duration) (key : String) :
    ∃ gets, (s.call limit (.get key)).2 = { s with gets } := by
  rcases s.call_cases limit (.get key) with ⟨e, hs⟩ | ⟨e, hs⟩ | hs
  · exact ⟨s.gets, by rw [hs]⟩
  · exact ⟨s.gets, by rw [hs]; rfl⟩
  · refine ⟨s.gets + 1, ?_⟩
    rw [hs, perform]
    split <;> rfl

/-- What a read answers does not depend on the number of reads before it. -/
theorem answer_get_withGets (s : Store) (gets : Nat) (limit : Option Duration) (key : String) :
    (({ s with gets } : Store).call limit (.get key)).1 = (s.call limit (.get key)).1 := by
  rw [answer_get, answer_get]
  rfl

end Store

namespace PublicKeys

open Program

/-! ## One lookup -/

/-- What a read of a user's key stands for. -/
def ofRead (diagnose : Json.Diagnosis) (userId : String) :
    Except StoreError (Option Bytes) → Except PublicKeyError (Option KeyPair)
  | .error cause => .error (.store cause)
  | .ok none => .ok none
  | .ok (some bytes) =>
    match KeyPair.decode? bytes with
    | some pair => .ok (some pair)
    | none => .error (.corrupted userId (diagnose bytes))

/-- What a lookup of one user answers. -/
def lookup (diagnose : Json.Diagnosis) (limit : Duration) (s : Store) (userId : String) :
    Except PublicKeyError (Option KeyPair) :=
  ofRead diagnose userId (s.call (some limit) (.get (Key.pubkey userId))).1

variable {diagnose : Json.Diagnosis} {limit : Duration} {w : World} {userId : String}
  {userIds : List String}

/-- A lookup fails with the store, or because of the value that it finds. -/
theorem error_of_lookup {s : Store} {e : PublicKeyError}
    (h : lookup diagnose limit s userId = .error e) :
    (∃ cause, e = .store cause) ∨ ∃ value, s.get? (Key.pubkey userId) = some value ∧
      e = .corrupted userId (diagnose value) := by
  rw [lookup] at h
  cases hanswer : (s.call (some limit) (.get (Key.pubkey userId))).1 with
  | error cause =>
    rw [hanswer] at h
    cases h
    exact .inl ⟨cause, rfl⟩
  | ok raw =>
    rw [hanswer] at h
    rw [← Store.call_get hanswer]
    cases raw with
    | none => cases h
    | some bytes =>
      rw [ofRead] at h
      split at h
      · cases h
      · cases h
        exact .inr ⟨bytes, rfl, rfl⟩

/-- A lookup finds no key pair if and only if nothing is stored. -/
theorem eq_none_iff_of_lookup {s : Store} {pair? : Option KeyPair}
    (h : lookup diagnose limit s userId = .ok pair?) :
    pair? = none ↔ s.get? (Key.pubkey userId) = none := by
  rw [lookup] at h
  cases hanswer : (s.call (some limit) (.get (Key.pubkey userId))).1 with
  | error cause =>
    rw [hanswer] at h
    cases h
  | ok raw =>
    rw [hanswer] at h
    rw [← Store.call_get hanswer]
    cases raw with
    | none =>
      cases h
      exact ⟨fun _ => rfl, fun _ => rfl⟩
    | some bytes =>
      rw [ofRead] at h
      split at h
      · cases h
        exact ⟨fun hnone => (by cases hnone), fun hnone => (by cases hnone)⟩
      · cases h

theorem get_eq (diagnose : Json.Diagnosis) (limit : Duration) (userId : String) :
    (get diagnose limit userId).run = .call (.store limit (.get (Key.pubkey userId)))
      fun answer => .done (ofRead diagnose userId answer) := by
  refine congrArg (Program.call _) (funext fun answer => ?_)
  cases answer with
  | error cause => rfl
  | ok raw =>
    cases raw with
    | none => rfl
    | some bytes =>
      change (match KeyPair.decode? bytes with
        | some pair => pure (some pair)
        | none => throw (.corrupted userId (diagnose bytes)) :
          Operation PublicKeyError (Option KeyPair)).run = _
      rw [ofRead]
      cases KeyPair.decode? bytes <;> rfl

/-- One lookup, with whatever comes after it. -/
theorem runFrom_get_bind {α : Type} (diagnose : Json.Diagnosis) (limit : Duration) (w : World)
    (userId : String) (f : Option KeyPair → Operation PublicKeyError α) (gets : Nat) (waited : Duration) :
    ∃ gets' waited',
    (get diagnose limit userId >>= f).run.runFrom none waited (w.withGets gets) =
      match lookup diagnose limit w.store userId with
      | .ok pair => (f pair).run.runFrom none waited' (w.withGets gets')
      | .error e => (.finished (.error e), w.withGets gets') := by
  obtain ⟨gets', hstore⟩ :=
    (w.withGets gets).store.exists_call_get_eq (some limit) (Key.pubkey userId)
  have hanswer : ((w.withGets gets).store.call (some limit) (.get (Key.pubkey userId))).1 =
      (w.store.call (some limit) (.get (Key.pubkey userId))).1 :=
    w.store.answer_get_withGets gets (some limit) (Key.pubkey userId)
  refine ⟨gets', waited + (w.withGets gets).waitFor (.store limit (.get (Key.pubkey userId))), ?_⟩
  rw [ExceptT.run_bind, get_eq]
  change (Program.call (.store limit (.get (Key.pubkey userId))) _).runFrom _ _ _ = _
  rw [runFrom_store, hanswer, hstore, lookup]
  beta_reduce
  generalize ofRead diagnose userId (w.store.call (some limit) (.get (Key.pubkey userId))).1 = result
  cases result <;> rfl

/-- **One lookup.**  It always comes to its end and changes nothing. -/
theorem run_get (diagnose : Json.Diagnosis) (limit : Duration) (w : World) (userId : String) :
    ∃ gets, (get diagnose limit userId).run.run none w =
      (.finished (lookup diagnose limit w.store userId), w.withGets gets) := by
  obtain ⟨gets, _, hrun⟩ :=
    runFrom_get_bind diagnose limit w userId (fun pair => pure pair) w.store.gets ⟨0⟩
  have hself : w.withGets w.store.gets = w := rfl
  rw [bind_pure, hself] at hrun
  refine ⟨gets, ?_⟩
  rw [Program.run, hrun]
  cases lookup diagnose limit w.store userId <;> rfl

/-! ## Several lookups -/

/-- What lookups one after another find, added to what was found so far, up to the first one that
fails. -/
def gather (single : String → Except PublicKeyError (Option KeyPair))
    (found : Table (Option KeyPair)) (userIds : List String) :
    Except PublicKeyError (Table (Option KeyPair)) :=
  userIds.foldlM (fun found userId => (single userId).map (found.insert userId)) found

/-- What is found in one go agrees with single lookups. -/
structure IsBatch (single : String → Except PublicKeyError (Option KeyPair))
    (userIds : List String) (batch : Except PublicKeyError (Table (Option KeyPair))) : Prop where
  /-- It succeeds if and only if every single lookup does. -/
  succeeds : (∃ found, batch = .ok found) ↔ ∀ userId ∈ userIds, ∃ pair?, single userId = .ok pair?
  /-- The users that are found are those that were asked for. -/
  users : ∀ found, batch = .ok found →
    ∀ userId, (found.get? userId).isSome = true ↔ userId ∈ userIds
  /-- What is found of a user is what a single lookup finds. -/
  pairs : ∀ found, batch = .ok found →
    ∀ userId pair?, found.get? userId = some pair? → single userId = .ok pair?
  /-- The error is that of the first single lookup that fails. -/
  error : ∀ e, batch = .error e → ∃ before userId after, userIds = before ++ userId :: after ∧
    (∀ other ∈ before, ∃ pair?, single other = .ok pair?) ∧ single userId = .error e

section Gather

variable {single : String → Except PublicKeyError (Option KeyPair)}
  {found result : Table (Option KeyPair)}

theorem gather_cons_ok {pair? : Option KeyPair} (h : single userId = .ok pair?) :
    gather single found (userId :: userIds) =
      gather single (found.insert userId pair?) userIds := by
  rw [gather, List.foldlM_cons, h]
  rfl

theorem gather_cons_error {e : PublicKeyError} (h : single userId = .error e) :
    gather single found (userId :: userIds) = .error e := by
  rw [gather, List.foldlM_cons, h]
  rfl

/-- Later lookups of a user find the same, so it does not matter which of them is kept. -/
theorem get?_of_gather (h : gather single found userIds = .ok result) (userId : String) :
    (userId ∈ userIds → ∃ pair?, single userId = .ok pair? ∧ result.get? userId = some pair?) ∧
      (userId ∉ userIds → result.get? userId = found.get? userId) := by
  induction userIds generalizing found with
  | nil =>
    cases h
    exact ⟨fun hmem => (by cases hmem), fun _ => rfl⟩
  | cons first rest ih =>
    cases hfirst : single first with
    | error e =>
      rw [gather_cons_error hfirst] at h
      cases h
    | ok pair? =>
      rw [gather_cons_ok hfirst] at h
      obtain ⟨hmem, hnot⟩ := ih h
      rw [Table.get?_insert] at hnot
      by_cases hrest : userId ∈ rest
      · exact ⟨fun _ => hmem hrest, fun hout => absurd (List.mem_cons_of_mem first hrest) hout⟩
      · by_cases heq : userId = first
        · subst heq
          rw [if_pos rfl] at hnot
          exact ⟨fun _ => ⟨pair?, hfirst, hnot hrest⟩, fun hout => absurd List.mem_cons_self hout⟩
        · rw [if_neg heq] at hnot
          have hout : userId ∉ first :: rest := by simp [heq, hrest]
          exact ⟨fun hin => absurd hin hout, fun _ => hnot hrest⟩

theorem gather_eq_error_iff {e : PublicKeyError} : gather single found userIds = .error e ↔
    ∃ before userId after, userIds = before ++ userId :: after ∧
      (∀ other ∈ before, ∃ pair?, single other = .ok pair?) ∧ single userId = .error e := by
  induction userIds generalizing found with
  | nil =>
    refine ⟨fun h => (by cases h), ?_⟩
    rintro ⟨before, userId, after, hnil, -⟩
    exact absurd hnil.symm (by simp)
  | cons first rest ih =>
    cases hfirst : single first with
    | error cause =>
      rw [gather_cons_error hfirst]
      refine ⟨?_, ?_⟩
      · rintro ⟨⟩
        exact ⟨[], first, rest, rfl, by simp, hfirst⟩
      · rintro ⟨before, userId, after, hlist, hbefore, herror⟩
        cases before with
        | nil =>
          cases hlist
          rw [herror] at hfirst
          cases hfirst
          rfl
        | cons other before =>
          cases hlist
          obtain ⟨pair?, hok⟩ := hbefore first List.mem_cons_self
          rw [hok] at hfirst
          cases hfirst
    | ok pair? =>
      rw [gather_cons_ok hfirst, ih]
      refine ⟨?_, ?_⟩
      · rintro ⟨before, userId, after, rfl, hbefore, herror⟩
        exact ⟨first :: before, userId, after, rfl,
          List.forall_mem_cons.2 ⟨⟨pair?, hfirst⟩, hbefore⟩, herror⟩
      · rintro ⟨before, userId, after, hlist, hbefore, herror⟩
        cases before with
        | nil =>
          cases hlist
          rw [herror] at hfirst
          cases hfirst
        | cons other before =>
          cases hlist
          exact ⟨before, userId, after, rfl, (List.forall_mem_cons.1 hbefore).2, herror⟩

/-- Lookups one after another agree with single ones. -/
theorem isBatch_gather (single : String → Except PublicKeyError (Option KeyPair))
    (userIds : List String) : IsBatch single userIds (gather single .empty userIds) where
  succeeds := by
    cases hgather : gather single .empty userIds with
    | ok found =>
      refine ⟨fun _ userId hmem => ?_, fun _ => ⟨found, rfl⟩⟩
      obtain ⟨pair?, hsingle, -⟩ := (get?_of_gather hgather userId).1 hmem
      exact ⟨pair?, hsingle⟩
    | error e =>
      refine ⟨fun ⟨_, hok⟩ => (by cases hok), fun hall => ?_⟩
      obtain ⟨before, userId, after, rfl, -, herror⟩ := gather_eq_error_iff.1 hgather
      obtain ⟨pair?, hsingle⟩ := hall userId (by simp)
      rw [herror] at hsingle
      cases hsingle
  users found hfound userId := by
    obtain ⟨hmem, hnot⟩ := get?_of_gather hfound userId
    by_cases hin : userId ∈ userIds
    · obtain ⟨pair?, -, hget⟩ := hmem hin
      simp [hget, hin]
    · simp [hnot hin, hin]
  pairs found hfound userId pair? hget := by
    obtain ⟨hmem, hnot⟩ := get?_of_gather hfound userId
    by_cases hin : userId ∈ userIds
    · obtain ⟨other?, hsingle, hother⟩ := hmem hin
      rwa [Option.some.inj (hget.symm.trans hother)]
    · rw [hnot hin] at hget
      cases hget
  error e he := gather_eq_error_iff.1 he

end Gather

theorem runFrom_getManyFrom (diagnose : Json.Diagnosis) (limit : Duration) (w : World)
    (userIds : List String) (found : Table (Option KeyPair)) (gets : Nat) (waited : Duration) :
    ∃ gets', (getManyFrom diagnose limit found userIds).run.runFrom none waited (w.withGets gets) =
      (.finished (gather (lookup diagnose limit w.store) found userIds), w.withGets gets') := by
  induction userIds generalizing found gets waited with
  | nil => exact ⟨gets, rfl⟩
  | cons userId rest ih =>
    obtain ⟨gets', waited', hrun⟩ := runFrom_get_bind diagnose limit w userId
      (fun pair? => getManyFrom diagnose limit (found.insert userId pair?) rest) gets waited
    rw [getManyFrom, hrun]
    cases hsingle : lookup diagnose limit w.store userId with
    | error e =>
      rw [gather_cons_error hsingle]
      exact ⟨gets', rfl⟩
    | ok pair? =>
      rw [gather_cons_ok hsingle]
      exact ih _ gets' waited'

/-- **Several lookups.**  They always come to their end and change nothing. -/
theorem run_getMany (diagnose : Json.Diagnosis) (limit : Duration) (w : World)
    (userIds : List String) : ∃ gets, (getMany diagnose limit userIds).run.run none w =
      (.finished (gather (lookup diagnose limit w.store) .empty userIds), w.withGets gets) := by
  obtain ⟨gets, hrun⟩ := runFrom_getManyFrom diagnose limit w userIds .empty w.store.gets ⟨0⟩
  have hself : w.withGets w.store.gets = w := rfl
  rw [hself] at hrun
  exact ⟨gets, by rw [Program.run, getMany, hrun]⟩

variable {single : String → Except PublicKeyError (Option KeyPair)}
  {batch batch' : Except PublicKeyError (Table (Option KeyPair))}
  {others : List String}

/-- What is found does not depend on the order of the users or on how often they are listed. -/
theorem IsBatch.congr (h : IsBatch single userIds batch) (h' : IsBatch single others batch')
    (hsame : ∀ userId, userId ∈ others ↔ userId ∈ userIds) {found : Table (Option KeyPair)}
    (hfound : batch = .ok found) :
    ∃ found', batch' = .ok found' ∧ found'.get? = found.get? := by
  obtain ⟨found', hfound'⟩ := h'.succeeds.2 fun userId hmem =>
    h.succeeds.1 ⟨found, hfound⟩ userId ((hsame userId).1 hmem)
  refine ⟨found', hfound', funext fun userId => ?_⟩
  have husers := h.users found hfound userId
  have husers' := h'.users found' hfound' userId
  cases hget : found.get? userId with
  | none =>
    have hout : userId ∉ others := fun hin => by
      have := husers.2 ((hsame userId).1 hin)
      rw [hget] at this
      cases this
    rw [← Option.not_isSome_iff_eq_none, husers']
    exact hout
  | some pair? =>
    have hin : userId ∈ others := (hsame userId).2 (husers.1 (by rw [hget]; rfl))
    obtain ⟨pair', hget'⟩ := Option.isSome_iff_exists.1 (husers'.2 hin)
    have hsingle := h.pairs found hfound userId pair? hget
    have hsingle' := h'.pairs found' hfound' userId pair' hget'
    rw [hget', Except.ok.inj (hsingle'.symm.trans hsingle)]

/-- **Several users at once.**  Looking up several users agrees with looking them up one by one: it
finds the same of each of them, no key pair only where nothing is stored, and it fails as the first
of them does whose lookup fails, naming that user if it is the value that is at fault.  What it
finds does not depend on the order of the users or on how often they are listed, and neither kind of
lookup changes anything but the number of reads. -/
theorem batch_lookup (diagnose : Json.Diagnosis) (limit : Duration) (w : World)
    (userIds : List String) :
    (∀ userId, ∃ gets, (get diagnose limit userId).run.run none w =
      (.finished (lookup diagnose limit w.store userId), w.withGets gets)) ∧
    (∀ userId pair?, lookup diagnose limit w.store userId = .ok pair? →
      (pair? = none ↔ w.store.get? (Key.pubkey userId) = none)) ∧
    (∀ userId e, lookup diagnose limit w.store userId = .error e →
      (∃ cause, e = .store cause) ∨ ∃ value, w.store.get? (Key.pubkey userId) = some value ∧
        e = .corrupted userId (diagnose value)) ∧
    ∃ batch gets,
      (getMany diagnose limit userIds).run.run none w = (.finished batch, w.withGets gets) ∧
      IsBatch (lookup diagnose limit w.store) userIds batch ∧
      ∀ others, (∀ userId, userId ∈ others ↔ userId ∈ userIds) → ∀ found, batch = .ok found →
        ∃ found' gets', (getMany diagnose limit others).run.run none w =
          (.finished (.ok found'), w.withGets gets') ∧ found'.get? = found.get? := by
  obtain ⟨gets, hrun⟩ := run_getMany diagnose limit w userIds
  have hbatch := isBatch_gather (lookup diagnose limit w.store) userIds
  refine ⟨run_get diagnose limit w, fun _ _ => eq_none_iff_of_lookup, fun _ _ => error_of_lookup,
    _, gets, hrun, hbatch, fun others hsame found hfound => ?_⟩
  obtain ⟨gets', hothers⟩ := run_getMany diagnose limit w others
  obtain ⟨found', hfound', hget⟩ :=
    hbatch.congr (isBatch_gather (lookup diagnose limit w.store) others) hsame hfound
  exact ⟨found', gets', by rw [hothers, hfound'], hget⟩

/-- A store that holds the key pair of one user and a value of another that is none. -/
def mixedStore : Store :=
  (Store.memory.seed (Key.pubkey "ada") (KeyPair.encode ⟨[4, 1, 2], [4, 3]⟩)).seed
    (Key.pubkey "eve") (.ofText "[]]")

theorem batch_lookup_of_mixedStore :
    ((getMany Utf8.decodeLossy ⟨5⟩ ["bob", "eve", "ada"]).run.run none (.new mixedStore)).1 =
        .finished (.error (.corrupted "eve" "[]]")) ∧
      ∃ found found' gets gets',
        (getMany Utf8.decodeLossy ⟨5⟩ ["ada", "bob", "ada"]).run.run none (.new mixedStore) =
          (.finished (.ok found), (World.new mixedStore).withGets gets) ∧
        (getMany Utf8.decodeLossy ⟨5⟩ ["bob", "ada"]).run.run none (.new mixedStore) =
          (.finished (.ok found'), (World.new mixedStore).withGets gets') ∧
        found'.get? = found.get? ∧ found.get? "bob" = some none := by
  refine ⟨by rfl, ?_⟩
  obtain ⟨-, -, -, batch, gets, hrun, -, hothers⟩ :=
    batch_lookup Utf8.decodeLossy ⟨5⟩ (.new mixedStore) ["ada", "bob", "ada"]
  have hbatch : batch = .ok ⟨[("ada", some ⟨[4, 1, 2], [4, 3]⟩), ("bob", none)]⟩ := by
    have hfst := congrArg Prod.fst hrun
    cases hfst
    rfl
  obtain ⟨found', gets', hrun', hget⟩ := hothers ["bob", "ada"] (by simp [or_comm]) _ hbatch
  exact ⟨_, found', gets, gets', hbatch ▸ hrun, hrun', hget, by rfl⟩

end PublicKeys

end SealedChannel
