import Mathlib.Logic.Function.Basic
import SealedChannel.Proofs.Deployment.Basic
import SealedChannel.Proofs.KeyPair
import SealedChannel.Proofs.Service.Footprint
import SealedChannel.Proofs.Storage.ModeChange
import SealedChannel.Proofs.Text.Utf8

/-!
# One store, three maps

Key pairs, backups and modes lie in one store of byte strings under text keys.  Whoever uses them
sees three maps that have nothing to do with each other: from users to key pairs, from users to
backups, and from channels to modes.  Ids may hold anything, and the calls to the store may fail or
come too late at any time.

## What is here

* `Ideal`, `Access` — the three maps, and what may be asked of them.
* `Ideal.answer`, `Ideal.after` — what the maps answer, and the maps afterwards.
* `Ideal.Represents` — a byte store holds the maps.
* `Ideal.Governs` — an operation on such a store does what is asked of the maps, or fails and
  changes nothing; the rules for it follow the way in which the operation is put together.
* `Vault.Matches` — a run of accesses, compared with the maps at each of them.
* `Vault.matches_new` — every run matches.
-/

set_option autoImplicit false
namespace SealedChannel

open Program

/-! ## The maps -/

/-- Three maps that have nothing to do with each other. -/
structure Ideal where
  pairs : String → Option KeyPair
  backups : String → Option String
  modes : String → Mode

/-- What may be asked of the maps. -/
inductive Access where
  | setPair (userId : String) (pair : KeyPair)
  | getPair (userId : String)
  | hasPair (userId : String)
  | getPairs (userIds : List String)
  | storeBackup (userId backup : String)
  | getBackup (userId : String)
  | deleteBackup (userId : String)
  | setMode (channelId : String) (mode : Mode)
  | getMode (channelId : String)

/-- What an access answers.  The key pairs of several users are told by the user. -/
@[reducible]
def Access.Answer : Access → Type
  | .setPair _ _ => Unit
  | .getPair _ => Option KeyPair
  | .hasPair _ => Bool
  | .getPairs _ => String → Option (Option KeyPair)
  | .storeBackup _ _ => Unit
  | .getBackup _ => Option String
  | .deleteBackup _ => Unit
  | .setMode _ _ => Bool
  | .getMode _ => Mode

namespace Ideal

/-- Nothing is stored, and no channel is encrypted. -/
def empty : Ideal :=
  ⟨fun _ => none, fun _ => none, fun _ => .plain⟩

/-- What the maps answer. -/
def answer (ideal : Ideal) : (a : Access) → a.Answer
  | .setPair _ _ => ()
  | .getPair userId => ideal.pairs userId
  | .hasPair userId => (ideal.pairs userId).isSome
  | .getPairs userIds => fun userId => if userId ∈ userIds then some (ideal.pairs userId) else none
  | .storeBackup _ _ => ()
  | .getBackup userId => ideal.backups userId
  | .deleteBackup _ => ()
  | .setMode channelId mode => decide (ideal.modes channelId ≠ mode)
  | .getMode channelId => ideal.modes channelId

/-- The maps afterwards. -/
def after (ideal : Ideal) : Access → Ideal
  | .setPair userId pair => { ideal with pairs := Function.update ideal.pairs userId (some pair) }
  | .storeBackup userId backup =>
    { ideal with backups := Function.update ideal.backups userId (some backup) }
  | .deleteBackup userId => { ideal with backups := Function.update ideal.backups userId none }
  | .setMode channelId mode => { ideal with modes := Function.update ideal.modes channelId mode }
  | .getPair _ | .hasPair _ | .getPairs _ | .getBackup _ | .getMode _ => ideal

/-! ## The maps in a store -/

/-- A byte store holds the maps, and no foreign write is waiting. -/
structure Represents (ideal : Ideal) (s : Store) : Prop where
  spares : ∀ key, s.Spares key
  pairs : ∀ userId, s.get? (Key.pubkey userId) = (ideal.pairs userId).map KeyPair.encode
  backups : ∀ userId, s.get? (Key.backup userId) = (ideal.backups userId).map Bytes.ofText
  modes : ∀ channelId, s.modeOf channelId = ideal.modes channelId

variable {ideal : Ideal} {s s' : Store}

theorem represents_new (scripted atomic : Bool) : empty.Represents (.new scripted atomic) :=
  ⟨Store.spares_new scripted atomic, fun _ => rfl, fun _ => rfl, fun _ => rfl⟩

section Writes

variable (h : ideal.Represents s) (hspares : ∀ key, s'.Spares key)
include h hspares

/-- The maps are still there if no value has changed. -/
theorem Represents.of_get?_eq (hget : ∀ key, s'.get? key = s.get? key) : ideal.Represents s' :=
  ⟨hspares, fun _ => by rw [hget, h.pairs], fun _ => by rw [hget, h.backups],
    fun _ => by rw [Store.modeOf, hget, ← h.modes, Store.modeOf]⟩

/-- A value under the key of a key pair changes the map of key pairs alone. -/
theorem Represents.pair (userId : String) (pair? : Option KeyPair) (hget : ∀ key, s'.get? key =
      if key = Key.pubkey userId then pair?.map KeyPair.encode else s.get? key) :
    { ideal with pairs := Function.update ideal.pairs userId pair? }.Represents s' := by
  refine ⟨hspares, fun other => ?_, fun other => ?_, fun other => ?_⟩
  · by_cases hother : other = userId
    · simp [hget, hother]
    · simp [hget, hother, h.pairs]
  · rw [hget, if_neg (Key.pubkey_ne_backup userId other).symm, h.backups]
  · rw [Store.modeOf, hget, if_neg (Key.pubkey_ne_mode userId other).symm, ← h.modes, Store.modeOf]

/-- A value under the key of a backup changes the map of backups alone. -/
theorem Represents.backup (userId : String) (backup? : Option String) (hget : ∀ key, s'.get? key =
      if key = Key.backup userId then backup?.map Bytes.ofText else s.get? key) :
    { ideal with backups := Function.update ideal.backups userId backup? }.Represents s' := by
  refine ⟨hspares, fun other => ?_, fun other => ?_, fun other => ?_⟩
  · rw [hget, if_neg (Key.pubkey_ne_backup other userId), h.pairs]
  · by_cases hother : other = userId
    · simp [hget, hother]
    · simp [hget, hother, h.backups]
  · rw [Store.modeOf, hget, if_neg (Key.backup_ne_mode userId other).symm, ← h.modes, Store.modeOf]

/-- A value under the key of a mode changes the map of modes alone. -/
theorem Represents.mode {channelId : String} {raw : Option Bytes} (hget : ∀ key, s'.get? key =
      if key = Key.mode channelId then raw else s.get? key) :
    { ideal with modes := Function.update ideal.modes channelId (Mode.current raw) }.Represents
      s' := by
  refine ⟨hspares, fun other => ?_, fun other => ?_, fun other => ?_⟩
  · rw [hget, if_neg (Key.pubkey_ne_mode other channelId), h.pairs]
  · rw [hget, if_neg (Key.backup_ne_mode other channelId), h.backups]
  · by_cases hother : other = channelId
    · simp [Store.modeOf, hget, hother]
    · simp [Store.modeOf, hget, hother, ← h.modes]

end Writes

section Calls

variable (h : ideal.Represents s) {limit : Option Duration} {c : StoreCall}
  {answer : Except StoreError c.Answer} (hcall : s.call limit c = (answer, s'))
include h hcall

theorem Represents.spares_call (key : String) : s'.Spares key := by
  have hkey := (h.spares key).call limit c
  rwa [hcall] at hkey

/-- A call without an effect leaves the maps as they are. -/
theorem Represents.of_call (hnone : ∀ key, c.effectOn? key answer = none) : ideal.Represents s' :=
  h.of_get?_eq (h.spares_call hcall) fun key =>
    Store.get?_call_of_none (h.spares key) hcall (hnone key)

end Calls

/-! ## Operations on the maps -/

/-- How an operation ends that is governed by maps: if its calls have succeeded, it answers what the
maps answer, and the store holds the maps afterwards; if one has failed, so has the operation, and
the store still holds the maps from before.  Nothing but the store has changed. -/
structure Ends {ε α : Type} (ideal next : Ideal) (answer : α) (t₀ : Moment)
    (result : Except ε α) (t : Moment) : Prop where
  rest : t.world = { t₀.world with store := t.world.store }
  outcome : (t.made.all Exchange.succeeded = t₀.made.all Exchange.succeeded ∧
      result = .ok answer ∧ next.Represents t.world.store) ∨
    (t.made.all Exchange.succeeded = false ∧ (∃ e, result = .error e) ∧
      ideal.Represents t.world.store)

/-- An operation that may take its time comes to its end, and does what is asked of the maps or
fails. -/
def Governs {ε α : Type} (ideal next : Ideal) (answer : α) (op : Operation ε α) : Prop :=
  ∀ t : Moment, ideal.Represents t.world.store → t.world.held = [] →
    op.run.Ensures .calm none (Ends ideal next answer t) (fun _ => False) t

variable {ε ε' α β : Type} {next : Ideal} {a : α} {b : β}

theorem governs_pure : ideal.Governs ideal a (pure a : Operation ε α) :=
  fun _ ht _ => ⟨rfl, .inl ⟨rfl, rfl, ht⟩⟩

/-- An operation that asks the maps for something goes on with the answer. -/
theorem Governs.bind {op : Operation ε α} {f : α → Operation ε β} (hop : ideal.Governs ideal a op)
    (hf : ideal.Governs next b (f a)) : ideal.Governs next b (op >>= f) := by
  intro t ht hheld
  refine ensures_run_bind.2 ((hop t ht hheld).imp (fun result t₁ h => ?_) fun _ h => h)
  obtain ⟨hrest, ⟨hmade, rfl, hafter⟩ | ⟨hmade, ⟨e, rfl⟩, hafter⟩⟩ := h
  · have hheld₁ : t₁.world.held = [] := by rw [hrest]; exact hheld
    refine (hf t₁ hafter hheld₁).imp (fun result t₂ h => ⟨?_, ?_⟩) fun _ h => h
    · rw [h.rest, hrest]
    · rw [← hmade]
      exact h.outcome
  · exact ⟨hrest, .inr ⟨hmade, ⟨e, rfl⟩, hafter⟩⟩

theorem Governs.map {op : Operation ε α} (hop : ideal.Governs ideal a op) (f : α → β) :
    ideal.Governs ideal (f a) (f <$> op) := by
  rw [← bind_pure_comp]
  exact hop.bind governs_pure

theorem Governs.wrap {op : Operation ε α} (hop : ideal.Governs next a op) (f : ε → ε') :
    ideal.Governs next a (Operation.wrap f op) := by
  intro t ht hheld
  refine ensures_run_wrap.2 ((hop t ht hheld).imp (fun result t₁ h => ⟨h.rest, ?_⟩) fun _ h => h)
  obtain ⟨hmade, rfl, hafter⟩ | ⟨hmade, ⟨e, rfl⟩, hafter⟩ := h.outcome
  · exact .inl ⟨hmade, rfl, hafter⟩
  · exact .inr ⟨hmade, ⟨f e, rfl⟩, hafter⟩

/-- A call to the store, by what it does to a store that holds the maps. -/
theorem governs_store {limit : Duration} {c : StoreCall} {answer : c.Answer}
    (hok : ∀ {s s' : Store} {told : c.Answer}, ideal.Represents s → (∀ key, s'.Spares key) →
      s.call (some limit) c = (.ok told, s') → told = answer ∧ next.Represents s') :
    ideal.Governs next answer (Operation.store limit c) := by
  intro t ht _
  refine .run_store_calm (fun hover => absurd rfl (ne_none_of_isOver hover)) fun told store _ hcall => ?_
  refine ⟨rfl, ?_⟩
  rw [Moment.all_answered]
  cases told with
  | error e =>
    have hafter := ht.of_call hcall fun key => StoreCall.effectOn?_error key c e
    exact .inr ⟨Bool.and_false _, ⟨e, rfl⟩, hafter⟩
  | ok told =>
    obtain ⟨rfl, hafter⟩ := hok ht (ht.spares_call hcall) hcall
    exact .inl ⟨Bool.and_true _, rfl, hafter⟩

/-- A read answers the value that the maps give to the key. -/
theorem governs_get {limit : Duration} {key : String} {value : Option Bytes}
    (hvalue : ∀ {s : Store}, ideal.Represents s → s.get? key = value) :
    ideal.Governs ideal value (Operation.store limit (.get key)) := by
  refine governs_store fun {s s' told} hs _ hcall => ⟨?_, hs.of_call hcall fun _ => rfl⟩
  rw [← hvalue hs]
  exact Store.call_get (congrArg Prod.fst hcall)

/-- A write or a removal without a condition, by what it means to the maps. -/
theorem governs_write {limit : Duration} {c : StoreCall} {answer : c.Answer} {name : String}
    {value : Option Bytes} (htarget : c.target? = some (name, value))
    (htook : ∀ told : c.Answer, told = answer ∧ c.tookEffect (.ok told) = true)
    (hnext : ∀ {s s' : Store}, ideal.Represents s → (∀ key, s'.Spares key) →
      (∀ key, s'.get? key = if key = name then value else s.get? key) → next.Represents s') :
    ideal.Governs next answer (Operation.store limit c) := by
  refine governs_store fun {s s' told} hs hspares hcall => ?_
  obtain ⟨hanswer, heffect⟩ := htook told
  refine ⟨hanswer, hnext hs hspares fun key => ?_⟩
  have hget := Store.get?_call (hs.spares key) (some limit) c
  rw [hcall, StoreCall.effectOn?, htarget] at hget
  by_cases hkey : key = name
  · rw [hget, hkey]
    simp [heffect]
  · rw [hget]
    simp [hkey, Ne.symm hkey]

/-! ## Accesses -/

variable (ideal) (limit : Duration)

theorem governs_setPair (userId : String) (pair : KeyPair) :
    ideal.Governs (ideal.after (.setPair userId pair)) () (PublicKeys.set limit userId pair) := by
  have hwrite : ideal.Governs (ideal.after (.setPair userId pair)) ()
      (Operation.store limit (.set (Key.pubkey userId) pair.encode)) :=
    governs_write rfl (fun _ => ⟨rfl, rfl⟩) fun hs hspares hget =>
      hs.pair hspares userId (some pair) hget
  exact hwrite.wrap _

theorem governs_raw (userId : String) :
    ideal.Governs ideal ((ideal.pairs userId).map KeyPair.encode) (PublicKeys.raw limit userId) :=
  governs_get fun hs => hs.pairs userId

theorem governs_getPair (diagnose : Json.Diagnosis) (userId : String) :
    ideal.Governs ideal (ideal.pairs userId) (PublicKeys.get diagnose limit userId) := by
  refine ((ideal.governs_raw limit userId).wrap _).bind ?_
  cases ideal.pairs userId with
  | none => exact governs_pure
  | some pair =>
    simp only [Option.map_some, KeyPair.decode?_encode]
    exact governs_pure

theorem governs_hasPair (userId : String) :
    ideal.Governs ideal (ideal.pairs userId).isSome (PublicKeys.has limit userId) := by
  have hmap := (ideal.governs_raw limit userId).map Option.isSome
  rwa [Option.isSome_map] at hmap

/-- The key pairs of several users, added to those found so far. -/
def collect (found : Table (Option KeyPair)) (userIds : List String) : Table (Option KeyPair) :=
  userIds.foldl (fun found userId => found.insert userId (ideal.pairs userId)) found

theorem get?_collect (found : Table (Option KeyPair)) (userIds : List String) (userId : String) :
    (ideal.collect found userIds).get? userId =
      if userId ∈ userIds then some (ideal.pairs userId) else found.get? userId := by
  induction userIds generalizing found with
  | nil => rfl
  | cons first rest ih =>
    rw [collect, List.foldl_cons, ← collect, ih, Table.get?_insert]
    by_cases hfirst : userId = first
    · simp [hfirst]
    · simp [hfirst]

theorem governs_getManyFrom (diagnose : Json.Diagnosis) (found : Table (Option KeyPair))
    (userIds : List String) :
    ideal.Governs ideal (ideal.collect found userIds)
      (PublicKeys.getManyFrom diagnose limit found userIds) := by
  induction userIds generalizing found with
  | nil => exact governs_pure
  | cons userId rest ih => exact (ideal.governs_getPair limit diagnose userId).bind (ih _)

theorem governs_getPairs (diagnose : Json.Diagnosis) (userIds : List String) :
    ideal.Governs ideal (ideal.answer (.getPairs userIds))
      (Table.get? <$> PublicKeys.getMany diagnose limit userIds) := by
  have hanswer : (ideal.collect .empty userIds).get? = ideal.answer (.getPairs userIds) :=
    funext fun userId => ideal.get?_collect .empty userIds userId
  rw [← hanswer]
  exact (ideal.governs_getManyFrom limit diagnose .empty userIds).map Table.get?

theorem governs_storeBackup (userId backup : String) :
    ideal.Governs (ideal.after (.storeBackup userId backup)) ()
      (Backups.store limit userId backup) :=
  governs_write rfl (fun _ => ⟨rfl, rfl⟩) fun hs hspares hget =>
    hs.backup hspares userId (some backup) hget

theorem governs_getBackup (userId : String) :
    ideal.Governs ideal (ideal.backups userId) (Backups.get limit userId) := by
  have hread : ideal.Governs ideal ((ideal.backups userId).map Bytes.ofText)
      (Operation.store limit (.get (Key.backup userId))) := governs_get fun hs => hs.backups userId
  have hdecoded : ((ideal.backups userId).map Bytes.ofText).map Utf8.decodeLossy =
      ideal.backups userId := by
    cases ideal.backups userId with
    | none => rfl
    | some backup => exact congrArg some (Utf8.decodeLossy_ofText backup)
  refine hread.bind ?_
  rw [hdecoded]
  exact governs_pure

theorem governs_deleteBackup (userId : String) :
    ideal.Governs (ideal.after (.deleteBackup userId)) () (Backups.delete limit userId) :=
  governs_write rfl (fun _ => ⟨rfl, rfl⟩) fun hs hspares hget =>
    hs.backup hspares userId none hget

variable {ideal}

/-- A change of a mode that has returned without an error has told whether the mode was another one,
and changed the map of modes. -/
theorem Represents.decided {s s' : Store} {channelId : String} {mode : Mode} {changed : Bool}
    (h : ideal.Represents s) (hspares : ∀ key, s'.Spares key)
    (hothers : ∀ key, key ≠ Key.mode channelId → s'.get? key = s.get? key)
    (hstore : Modes.Decides channelId mode s (.ok changed) s') :
    changed = decide (ideal.modes channelId ≠ mode) ∧
      (ideal.after (.setMode channelId mode)).Represents s' := by
  have hvalue (raw : Option Bytes) (hraw : s'.get? (Key.mode channelId) = raw) (key : String) :
      s'.get? key = if key = Key.mode channelId then raw else s.get? key := by
    by_cases hkey : key = Key.mode channelId
    · rw [if_pos hkey, hkey, hraw]
    · rw [if_neg hkey, hothers key hkey]
  rw [← h.modes channelId]
  cases changed with
  | true =>
    obtain ⟨hother, hwritten⟩ := hstore
    have hafter := h.mode hspares (hvalue _ hwritten)
    rw [Mode.current_encode] at hafter
    exact ⟨(decide_eq_true hother).symm, hafter⟩
  | false =>
    obtain ⟨hsame, hkept⟩ := hstore
    have hafter := h.mode hspares (hvalue _ hkept)
    rw [← Store.modeOf, hsame] at hafter
    exact ⟨(decide_eq_false (not_not_intro hsame)).symm, hafter⟩

variable (ideal)

/-- A change of a mode writes under the key of its channel alone. -/
theorem governs_setMode (m : Modes) (channelId : String) (mode : Mode) :
    ideal.Governs (ideal.after (.setMode channelId mode)) (decide (ideal.modes channelId ≠ mode))
      (m.setIfDifferent channelId mode) := by
  intro t ht hheld
  let r : Reach := ⟨fun _ => True, fun key _ => key = Key.mode channelId, fun _ => False⟩
  have hwithin : (m.setIfDifferent channelId mode).run.Within r :=
    m.within_setIfDifferent trivial rfl
  have hchange : (m.setIfDifferent channelId mode).run.Ensures .calm none _ _ t :=
    m.ensures_setIfDifferent mode (ht.spares (Key.mode channelId))
  have hkept : (m.setIfDifferent channelId mode).run.Ensures .calm none _ _ t :=
    hwithin.keeps.ensures (Contract.upheld_within r t.world.store) Reach.Preserves.turns
      (r.preserves_self t.world)
  refine (hchange.and hkept).imp (fun result t' h => ?_) fun _ h => ?_
  · obtain ⟨hdecided, -, hpreserves, -⟩ := h
    have hspares (key : String) : t'.world.store.Spares key := (hpreserves key (ht.spares key)).1
    have hothers (key : String) (hkey : key ≠ Key.mode channelId) :
        t'.world.store.get? key = t.world.store.get? key :=
      (hpreserves key (ht.spares key)).2 fun _ => hkey
    refine ⟨hdecided.rest.eq_of_calm, ?_⟩
    -- what the change does under its own key is decided by its result
    rw [hdecided.succeeded]
    cases result with
    | error e =>
      refine .inr ⟨Bool.and_false _, ⟨e, rfl⟩, ht.of_get?_eq hspares fun key => ?_⟩
      by_cases hkey : key = Key.mode channelId
      · rw [hkey]
        exact hdecided.store
      · exact hothers key hkey
    | ok changed =>
      obtain ⟨rfl, hafter⟩ := ht.decided hspares hothers hdecided.store
      exact .inl ⟨Bool.and_true _, rfl, hafter⟩
  · -- without a limit only a lock could cut the change off, and none is held
    rw [hheld] at h
    exact absurd (h.1.2 rfl) (by simp)

end Ideal

/-! ## Runs of accesses -/

/-- How the store is used: with limits of their own for key pairs and for backups. -/
structure Vault where
  /-- What is said about stored bytes that hold no key pair. -/
  diagnose : Json.Diagnosis
  pairLimit : Duration
  backupLimit : Duration
  modes : Modes

/-- The operation behind an access. -/
def Access.operation (v : Vault) : (a : Access) → Operation PublicKeyError a.Answer
  | .setPair userId pair => PublicKeys.set v.pairLimit userId pair
  | .getPair userId => PublicKeys.get v.diagnose v.pairLimit userId
  | .hasPair userId => .wrap .store (PublicKeys.has v.pairLimit userId)
  | .getPairs userIds => Table.get? <$> PublicKeys.getMany v.diagnose v.pairLimit userIds
  | .storeBackup userId backup => .wrap .store (Backups.store v.backupLimit userId backup)
  | .getBackup userId => .wrap .store (Backups.get v.backupLimit userId)
  | .deleteBackup userId => .wrap .store (Backups.delete v.backupLimit userId)
  | .setMode channelId mode => .wrap .store (v.modes.setIfDifferent channelId mode)
  | .getMode channelId => ExceptT.lift (v.modes.get channelId)

/-- What an access comes to if one of its calls fails: an error, or no encryption. -/
def Access.Fails : (a : Access) → Except PublicKeyError a.Answer → Prop
  | .getMode _, result => result = .ok .plain
  | _, result => ∃ e, result = .error e

namespace Vault

/-- What may happen. -/
inductive Step where
  | access (access : Access)
  /-- The store has another latency and refuses other calls. -/
  | faults (latency : Duration) (refuseGets refuseSets refuseDeletes : Bool)

/-- A run of accesses from a world matches the maps: each access comes to its end; if its calls have
all succeeded, it answers what the maps answer, and the run goes on with the maps afterwards;
otherwise it fails, and the run goes on with the maps from before. -/
def Matches (v : Vault) : Ideal → World → List Step → Prop
  | _, _, [] => True
  | ideal, w, .faults latency refuseGets refuseSets refuseDeletes :: rest =>
    v.Matches ideal (w.change (.faults latency refuseGets refuseSets refuseDeletes)) rest
  | ideal, w, .access a :: rest =>
    ∃ result, ((a.operation v).run.run none w).1 = .finished result ∧
      if ((a.operation v).run.transcript none w).all Exchange.succeeded then
        result = .ok (ideal.answer a) ∧
          v.Matches (ideal.after a) ((a.operation v).run.run none w).2 rest
      else a.Fails result ∧ v.Matches ideal ((a.operation v).run.run none w).2 rest

variable {v : Vault} {ideal : Ideal}

/-- What is known when an access comes to its end. -/
structure Done (ideal : Ideal) (a : Access) (t₀ : Moment) (result : Except PublicKeyError a.Answer)
    (t : Moment) : Prop where
  free : t.world.held = []
  outcome : (t.made.all Exchange.succeeded = t₀.made.all Exchange.succeeded ∧
      result = .ok (ideal.answer a) ∧ (ideal.after a).Represents t.world.store) ∨
    (t.made.all Exchange.succeeded = false ∧ a.Fails result ∧ ideal.Represents t.world.store)

section Accesses

variable {t : Moment} (ht : ideal.Represents t.world.store) (hheld : t.world.held = [])
include ht hheld

/-- An operation that is governed by the maps is an access to them. -/
theorem ensures_of_governs {a : Access} {op : Operation PublicKeyError a.Answer}
    (hop : ideal.Governs (ideal.after a) (ideal.answer a) op) (hfails : ∀ e, a.Fails (.error e)) :
    op.run.Ensures .calm none (Done ideal a t) (fun _ => False) t := by
  refine (hop t ht hheld).imp (fun result t' h => ⟨by rw [h.rest]; exact hheld, ?_⟩) fun _ h => h
  obtain hok | ⟨hmade, ⟨e, rfl⟩, hafter⟩ := h.outcome
  · exact .inl hok
  · exact .inr ⟨hmade, hfails e, hafter⟩

/-- A mode that cannot be read is no encryption. -/
theorem ensures_getMode (m : Modes) (channelId : String) :
    (ExceptT.lift (m.get channelId) : Operation PublicKeyError Mode).run.Ensures .calm none
      (Done ideal (.getMode channelId) t) (fun _ => False) t := by
  refine ensures_map.2 (ensures_bind.2 (.run_store_calm
    (fun hover => absurd rfl (ne_none_of_isOver hover)) fun answer store _ hcall => ?_))
  have hafter := ht.of_call hcall fun _ => by cases answer <;> rfl
  cases answer with
  | error e =>
    refine ⟨hheld, .inr ⟨?_, rfl, hafter⟩⟩
    rw [Moment.all_answered]
    exact Bool.and_false _
  | ok raw =>
    have hmode : Mode.current raw = ideal.modes channelId := by
      rw [← ht.modes, Store.modeOf, Store.call_get (congrArg Prod.fst hcall)]
    refine ⟨hheld, .inl ⟨?_, congrArg Except.ok hmode, hafter⟩⟩
    rw [Moment.all_answered]
    exact Bool.and_true _

/-- An access to a store that holds the maps. -/
theorem ensures_operation (v : Vault) (a : Access) :
    (a.operation v).run.Ensures .calm none (Done ideal a t) (fun _ => False) t := by
  cases a with
  | setPair userId pair =>
    exact ensures_of_governs ht hheld (ideal.governs_setPair _ userId pair) fun e => ⟨e, rfl⟩
  | getPair userId =>
    exact ensures_of_governs ht hheld (ideal.governs_getPair _ _ userId) fun e => ⟨e, rfl⟩
  | hasPair userId =>
    exact ensures_of_governs ht hheld ((ideal.governs_hasPair _ userId).wrap _) fun e => ⟨e, rfl⟩
  | getPairs userIds =>
    exact ensures_of_governs ht hheld (ideal.governs_getPairs _ _ userIds) fun e => ⟨e, rfl⟩
  | storeBackup userId backup =>
    exact ensures_of_governs ht hheld ((ideal.governs_storeBackup _ userId backup).wrap _)
      fun e => ⟨e, rfl⟩
  | getBackup userId =>
    exact ensures_of_governs ht hheld ((ideal.governs_getBackup _ userId).wrap _) fun e => ⟨e, rfl⟩
  | deleteBackup userId =>
    exact ensures_of_governs ht hheld ((ideal.governs_deleteBackup _ userId).wrap _)
      fun e => ⟨e, rfl⟩
  | setMode channelId mode =>
    exact ensures_of_governs ht hheld ((ideal.governs_setMode v.modes channelId mode).wrap _)
      fun e => ⟨e, rfl⟩
  | getMode channelId => exact ensures_getMode ht hheld v.modes channelId

end Accesses

/-- A store that holds the maps holds them under other faults as well. -/
theorem represents_faults {w : World} (hw : ideal.Represents w.store) (latency : Duration)
    (refuseGets refuseSets refuseDeletes : Bool) :
    ideal.Represents (w.change (.faults latency refuseGets refuseSets refuseDeletes)).store :=
  hw.of_get?_eq (fun key => World.spares_change (hw.spares key) _) fun _ => rfl

/-- From a world whose store holds the maps, every run matches them. -/
theorem matches_of_represents (v : Vault) {w : World} (hw : ideal.Represents w.store)
    (hheld : w.held = []) (steps : List Step) : v.Matches ideal w steps := by
  induction steps generalizing ideal w with
  | nil => trivial
  | cons step rest ih =>
    cases step with
    | faults latency refuseGets refuseSets refuseDeletes =>
      exact ih (represents_faults hw latency refuseGets refuseSets refuseDeletes) hheld
    | access a =>
      obtain ⟨result, waited, houtcome, hdone⟩ :=
        (ensures_operation (t := .start w) hw hheld v a).finishes
      refine ⟨result, houtcome, ?_⟩
      obtain ⟨hmade, hresult, hafter⟩ | ⟨hmade, hresult, hafter⟩ := hdone.outcome
      · have hall : ((a.operation v).run.transcript none w).all Exchange.succeeded = true := hmade
        rw [if_pos hall]
        exact ⟨hresult, ih hafter hdone.free⟩
      · have hall : ((a.operation v).run.transcript none w).all Exchange.succeeded = false := hmade
        rw [hall, if_neg Bool.false_ne_true]
        exact ⟨hresult, ih hafter hdone.free⟩

/-- **One store, three maps.**  On a store that is empty at first, in memory or not, with
compare-and-set or without it, every run of accesses matches the three maps, whatever the ids, the
key pairs and the backups are, and whatever faults come and go between the accesses. -/
theorem matches_new (v : Vault) (scripted atomic : Bool) (steps : List Step) :
    v.Matches .empty (.new (.new scripted atomic)) steps :=
  matches_of_represents v (Ideal.represents_new scripted atomic) rfl steps

end Vault

end SealedChannel
