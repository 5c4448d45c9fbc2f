import Mathlib.Data.List.Basic
import SealedChannel.Proofs.Deployment.Runs
import SealedChannel.Proofs.KeyPair
import SealedChannel.Proofs.Service.Demand

/-!
# Stored keys stay valid

Anybody may ask for anything at any time, every call may fail or be cut off, and the bytes of a
request are chosen by whoever sends it.  Still, what is stored as the key pair of a user is at every
moment a pair that has passed the check, and a look-up finds nothing else.

## What is here

* `Stored` — the stored form of a valid key pair.
* `KeysStored` — the invariant: nothing else is stored under the key of a key pair.
* `Demand.keeping` — the contract of a demand, which upholds the invariant.
* `Http.TellsKeys` — the response to a look-up holds valid key pairs.
* `KeyIntegrity.pushesOf` — the pushes for a user whose key pair was written.
* `KeyIntegrity.stored_keys_valid` — the invariant in every run, and what look-ups find.
-/

set_option autoImplicit false
namespace SealedChannel

/-! ## Stored keys -/

/-- A byte string is the stored form of a valid key pair. -/
def Stored (value : Bytes) : Prop :=
  ∃ pair, KeyPair.decode? value = some pair ∧ pair.isValid = true

/-- A valid pair is stored in a form that is read back. -/
theorem stored_encode {pair : KeyPair} (h : pair.isValid = true) : Stored pair.encode :=
  ⟨pair, pair.decode?_encode, h⟩

/-- A valid pair is the encodings of two different points. -/
theorem KeyPair.exists_points {pair : KeyPair} (h : pair.isValid = true) :
    ∃ P Q : Curve.PublicPoint, pair.check = .ok (P, Q) ∧ P ≠ Q ∧
      P.encode = pair.encr ∧ Q.encode = pair.sign := by
  rw [isValid] at h
  cases hcheck : pair.check with
  | error cause => rw [hcheck] at h; cases h
  | ok points =>
    obtain ⟨P, Q⟩ := points
    obtain ⟨hencr, hsign, hne⟩ := check_eq_ok_iff.1 hcheck
    have hP := Curve.PublicPoint.encode_of_check hencr
    have hQ := Curve.PublicPoint.encode_of_check hsign
    refine ⟨P, Q, rfl, ?_, hP, hQ⟩
    rintro rfl
    exact hne (hP.symm.trans hQ)

/-- Nothing else than valid key pairs is stored as the key pair of a user, and no foreign write to
such a key is waiting. -/
structure KeysStored (w : World) : Prop where
  spares : ∀ userId, w.store.Spares (Key.pubkey userId)
  stored : ∀ userId value, w.store.get? (Key.pubkey userId) = some value → Stored value

namespace KeysStored

variable {w : World}

/-- What leaves the keys of key pairs alone keeps them. -/
theorem of_get?_eq {w' : World} (h : KeysStored w)
    (hspares : ∀ userId, w'.store.Spares (Key.pubkey userId))
    (hget : ∀ userId, w'.store.get? (Key.pubkey userId) = w.store.get? (Key.pubkey userId)) :
    KeysStored w' :=
  ⟨hspares, fun userId value hvalue => h.stored userId value (by rw [← hget, hvalue])⟩

theorem begin (h : KeysStored w) (c : Call) : KeysStored (w.begin c) :=
  h.of_get?_eq (fun userId => World.spares_begin (h.spares userId) c)
    fun userId => World.get?_begin w c (Key.pubkey userId)

theorem change (h : KeysStored w) {change : Change}
    (hchange : ∀ userId, change.Spares (Key.pubkey userId)) : KeysStored (w.change change) :=
  h.of_get?_eq (fun userId => World.spares_change (h.spares userId) change)
    fun userId => World.get?_change (hchange userId)

end KeysStored

/-! ## Contracts -/

/-- The answer to a read of a key pair is nothing, or the stored form of a valid pair. -/
def Call.TellsStored : (c : Call) → c.Answer → Prop
  | .store _ (.get key), answer =>
    ∀ userId value, key = Key.pubkey userId → answer = .ok (some value) → Stored value
  | _, _ => True

namespace Demand

/-- The contract of a demand: it writes what it may write, and relies on the key pairs in the
store. -/
def keeping (d : Demand) : Contract where
  allows c := ∀ key value, c.target? = some (key, value) → d.mayWrite key value
  answers := Call.TellsStored

/-- A program that makes no other writes than a demand keeps the contract of the demand. -/
theorem keeps_of_writes {α : Type} {d : Demand} {p : Program α} {post : α → Prop}
    (h : p.Writes d.mayWrite) (hpost : ∀ a, post a) : p.Keeps d.keeping post := by
  have hkept : p.Keeps d.keeping fun _ => True :=
    h.keeps.weaken (fun _ hc => hc) fun _ _ _ => trivial
  exact hkept.imp fun a _ => hpost a

/-- What a call of a demand puts under the key of a user is the key pair of a push for that user. -/
theorem push?_of_effectOn? {d : Demand} {e : Exchange} {userId : String} {value : Option Bytes}
    (hallows : d.keeping.allows e.call) (h : e.effectOn? (Key.pubkey userId) = some value) :
    ∃ content, d.push? = some (userId, content) ∧ content.pair.isValid = true ∧
      value = some content.pair.encode :=
  of_mayWrite_pubkey (hallows _ _ (Exchange.target?_of_effectOn? h))

/-- **The contract of a demand upholds the invariant.**  What a demand writes as a key pair has been
checked, and so every key pair that is read is valid. -/
theorem upheld_keeping (d : Demand) : d.keeping.Upheld KeysStored where
  held _ h := ⟨h.spares, h.stored⟩
  begin h _ := h.begin _
  react {w c answer w'} h hallows hreact := by
    refine ⟨?_, fun userId => World.spares_react hreact (h.spares userId), fun userId value => ?_⟩
    · cases c with
      | store limit c =>
        cases c with
        | get key =>
          rintro userId value rfl rfl
          exact h.stored userId value (Store.call_get (World.react_store hreact).1).symm
        | _ => trivial
      | _ => trivial
    · intro hvalue
      rw [World.get?_react hreact (h.spares userId)] at hvalue
      cases heffect : (⟨c, some answer⟩ : Exchange).effectOn? (Key.pubkey userId) with
      | none =>
        rw [heffect] at hvalue
        exact h.stored userId value hvalue
      | some written =>
        obtain ⟨content, -, hvalid, rfl⟩ := push?_of_effectOn? hallows heffect
        rw [heffect] at hvalue
        obtain rfl := Option.some.inj hvalue
        exact stored_encode hvalid

end Demand

/-! ## Look-ups -/

/-- A look-up of key pairs does not find what is no key pair, and each pair that it finds passes the
check: its byte strings are the encodings of two different points. -/
structure FindsKeys (result : Except ServiceError (Table (Option KeyPair))) : Prop where
  uncorrupted : ∀ userId reason, result ≠ .error (.publicKey (.corrupted userId reason))
  points : ∀ keys userId pair, result = .ok keys → (userId, some pair) ∈ keys.entries →
    ∃ P Q : Curve.PublicPoint, pair.check = .ok (P, Q) ∧ P ≠ Q ∧
      P.encode = pair.encr ∧ Q.encode = pair.sign

namespace PublicKeys

variable {d : Demand} {diagnose : Json.Diagnosis} {limit : Duration}

/-- The key pair that is read for a user is valid. -/
theorem keeps_get (userId : String) : (get diagnose limit userId).run.Keeps d.keeping fun r =>
    (∀ other reason, r ≠ .error (.corrupted other reason)) ∧
      ∀ pair, r = .ok (some pair) → pair.isValid = true := by
  rw [get, Program.keeps_run_bind, Program.keeps_run_wrap, raw, Program.keeps_run_store]
  refine ⟨fun key value htarget => (by cases htarget), ?_⟩
  rintro (e | raw) hanswer
  · exact ⟨by rintro other reason ⟨⟩, by rintro pair ⟨⟩⟩
  · cases raw with
    | none => exact ⟨by rintro other reason ⟨⟩, by rintro pair ⟨⟩⟩
    | some value =>
      obtain ⟨pair, hpair, hvalid⟩ := hanswer userId value rfl rfl
      simp only [Except.mapError, hpair]
      refine ⟨by rintro other reason ⟨⟩, ?_⟩
      rintro other ⟨⟩
      exact hvalid

/-- So are those that are read for several users, if those found before are. -/
theorem keeps_getManyFrom (userIds : List String) {found : Table (Option KeyPair)}
    (hfound : ∀ userId pair, (userId, some pair) ∈ found.entries → pair.isValid = true) :
    (getManyFrom diagnose limit found userIds).run.Keeps d.keeping fun r =>
      FindsKeys (r.mapError ServiceError.publicKey) := by
  induction userIds generalizing found with
  | nil =>
    refine ⟨by rintro userId reason ⟨⟩, ?_⟩
    rintro keys userId pair ⟨⟩ hmem
    exact KeyPair.exists_points (hfound userId pair hmem)
  | cons userId rest ih =>
    rw [getManyFrom, Program.keeps_run_bind]
    refine (keeps_get userId).imp fun r hr => ?_
    obtain ⟨huncorrupted, hvalid⟩ := hr
    cases r with
    | error e =>
      refine ⟨?_, by rintro keys other pair ⟨⟩⟩
      rintro other reason heq
      cases heq
      exact huncorrupted other reason rfl
    | ok read =>
      refine ih fun other pair hmem => ?_
      rcases List.mem_cons.1 hmem with hself | hothers
      · obtain ⟨rfl, rfl⟩ := Prod.mk.inj hself
        exact hvalid pair rfl
      · exact hfound other pair (List.mem_filter.1 hothers).1

end PublicKeys

namespace Service

/-- A look-up finds valid key pairs. -/
theorem finds_keysOf (s : Service) (d : Demand) (userIds : List String) :
    (s.keysOf userIds).run.Keeps d.keeping FindsKeys := by
  rw [keysOf, Program.keeps_run_wrap, PublicKeys.getMany]
  exact PublicKeys.keeps_getManyFrom userIds fun userId pair hmem => by cases hmem

end Service

namespace Http

/-- The users whose key pairs a request looks up. -/
def Request.lookUp? (r : Request) : Option (List String) :=
  if r.method = "POST" ∧ r.path = "/api/v1/pubkey/get" ∧ r.user?.isSome then
    r.read? userIdsOfJson?
  else none

/-- The response to a look-up. -/
def Api.keysResponse : Except ServiceError (Table (Option KeyPair)) → Response
  | .ok keys => .json (keysToJson keys)
  | .error e => failure e

/-- If a request is a look-up, its response tells what a look-up that finds valid key pairs has
found. -/
def TellsKeys (r : Request) (response : Response) : Prop :=
  ∀ userIds, r.lookUp? = some userIds →
    ∃ result, FindsKeys result ∧ response = Api.keysResponse result

/-- A request that is a look-up is answered by it. -/
theorem Api.answers_of_lookUp (s : Service) {r : Request} {userIds : List String}
    (h : r.lookUp? = some userIds) :
    Answers s r .lookUpKeys (fun keys => .json (keysToJson keys)) (s.keysOf userIds) := by
  rw [Request.lookUp?] at h
  split at h
  · rename_i hcond
    obtain ⟨hmethod, hpath, huser⟩ := hcond
    obtain ⟨userId, huser⟩ := Option.isSome_iff_exists.1 huser
    have haction : Route.lookUpKeys.action? r.method = some .lookUpKeys := by rw [hmethod]; rfl
    obtain ⟨hlimit, hbody⟩ := Request.of_read? h
    refine ⟨by rw [hpath]; rfl, ?_, finish_of_post hmethod (by rw [haction]; rfl)⟩
    simp only [respond, Route.isPublic, huser, respondOn, haction, perform, withBody,
      if_neg hlimit, hbody]
    rfl
  · cases h

/-- A request tells valid key pairs only. -/
theorem keeps_serve (s : Service) (r : Request) :
    (Api.serve s r).Keeps (Demand.answer r).keeping (TellsKeys r) := by
  cases hlookUp : r.lookUp? with
  | none =>
    refine Demand.keeps_of_writes (Api.writes_serve s r) fun response userIds h => ?_
    rw [hlookUp] at h
    cases h
  | some userIds =>
    rw [(Api.answers_of_lookUp s hlookUp).serve, Program.keeps_map]
    refine (s.finds_keysOf _ userIds).imp fun result hresult => ?_
    exact fun _ _ => ⟨result, hresult, by cases result <;> rfl⟩

end Http

namespace Demand

/-- What is found on a demand is valid. -/
def Finds : Demand → Reply → Prop
  | .keysOf _, reply => ∀ result, reply = .keys result → FindsKeys result
  | .answer request, reply => ∀ response, reply = .response response →
    Http.TellsKeys request response
  | _, _ => True

/-- Every demand keeps its contract, and what it finds is valid. -/
theorem keeps_program (s : Service) (d : Demand) :
    (d.program s).Keeps d.keeping d.Finds := by
  have hany (hfinds : ∀ reply, d.Finds reply) : (d.program s).Keeps d.keeping d.Finds :=
    keeps_of_writes (d.writes_program s) hfinds
  cases d with
  | keysOf userIds =>
    rw [program, Program.keeps_map]
    refine (s.finds_keysOf _ userIds).imp fun result hresult => ?_
    rintro _ ⟨⟩
    exact hresult
  | answer request =>
    have hserve := Http.keeps_serve s request
    rw [program, Program.keeps_map]
    generalize Http.Api.serve s request = p at hserve ⊢
    refine hserve.imp fun response hresponse => ?_
    rintro _ ⟨⟩
    exact hresponse
  | _ => exact hany fun _ => trivial

end Demand

/-! ## Runs -/

namespace KeyIntegrity

open Deployment

/-- Any number of demands under way. -/
abbrev Office : Type :=
  Deployment Job Reply

/-- The push behind a call that has written the key pair of a user. -/
def pushAt? (s : Office) (userId : String) (entry : Nat × Exchange) : Option KeyPush := do
  let _ ← entry.2.effectOn? (Key.pubkey userId)
  let t ← s.tasks[entry.1]?
  let (user, content) ← t.request.demand.push?
  if user = userId then some content else none

/-- The pushes for a user whose key pair was written, in the order of the writes. -/
def pushesOf (s : Office) (userId : String) : List KeyPush :=
  s.log.filterMap (pushAt? s userId)

variable {w : World} {s : Office} {moves : List (Move Job)}

/-- Every run is orderly and keeps the invariant. -/
theorem orderly_of_office (hw : KeysStored w)
    (hmoves : ∀ userId, Spare moves (Key.pubkey userId))
    (h : (idle w).run Job.program moves = some s) :
    s.Orderly (fun job => job.demand.keeping) (fun job => job.demand.Finds) ∧ KeysStored s.world :=
  orderly_of_run h (fun _ job => job.demand.keeps_program job.service)
    (fun job => job.demand.upheld_keeping) hw
    fun change hchange _ hw => hw.change fun userId => hmoves userId change hchange

/-- What a call of the log puts under the key of a user is the key pair of the push behind it. -/
theorem effectOn?_eq
    (horderly : s.Orderly (fun job => job.demand.keeping) fun job => job.demand.Finds)
    {entry : Nat × Exchange} (hentry : entry ∈ s.log) (userId : String) :
    entry.2.effectOn? (Key.pubkey userId) =
      (pushAt? s userId entry).map fun content => some content.pair.encode := by
  obtain ⟨t, ht, hallows, -⟩ := horderly.log entry hentry
  cases heffect : entry.2.effectOn? (Key.pubkey userId) with
  | none => rw [pushAt?, heffect]; rfl
  | some value =>
    obtain ⟨content, hpush, -, rfl⟩ := Demand.push?_of_effectOn? hallows heffect
    simp [pushAt?, heffect, ht, hpush]

/-- What the log leaves under the key of a user is the key pair of the last push. -/
theorem lastEffect?_eq
    (horderly : s.Orderly (fun job => job.demand.keeping) fun job => job.demand.Finds)
    (userId : String) : s.lastEffect? (Key.pubkey userId) =
      (pushesOf s userId).getLast?.map fun content => some content.pair.encode := by
  rw [lastEffect?, Exchange.lastEffect?, List.filterMap_map, pushesOf, ← List.getLast?_map,
    List.map_filterMap]
  exact congrArg _ (List.filterMap_congr fun entry hentry => effectOn?_eq horderly hentry userId)

/-- **Stored keys stay valid.**  Whatever is asked for, in whatever turns, and whatever fails or is
cut off: what is stored as the key pair of a user is at every moment the key pair of the last push
for that user that was written, or the one that was there at first; it is read back as a pair that
passes the check; and so no look-up, by whatever way, finds a value that is no key pair, or a pair
that is not two different points. -/
theorem stored_keys_valid (hw : KeysStored w) (hmoves : ∀ userId, Spare moves (Key.pubkey userId))
    (h : (idle w).run Job.program moves = some s) :
    (∀ userId value, s.world.store.get? (Key.pubkey userId) = some value → Stored value) ∧
    (∀ userId, s.world.store.get? (Key.pubkey userId) =
      ((pushesOf s userId).getLast?.map fun content => some content.pair.encode).getD
        (w.store.get? (Key.pubkey userId))) ∧
    (∀ t ∈ s.tasks, ∀ reply, t.result? = some reply → t.request.demand.Finds reply) := by
  obtain ⟨horderly, hkeys⟩ := orderly_of_office hw hmoves h
  refine ⟨hkeys.stored, ?_, ?_⟩
  · intro userId
    rw [get?_of_run h (hw.spares userId) (hmoves userId), lastEffect?_eq horderly]
  · intro t ht reply hreply
    have hkeeps := horderly.tasks t ht
    rw [Task.result?_eq_some_iff.1 hreply] at hkeeps
    exact hkeeps

/-- The generator of the curve and its double. -/
def smallPair : KeyPair where
  encr :=
    [4, 107, 23, 209, 242, 225, 44, 66, 71, 248, 188, 230, 229, 99, 164, 64, 242, 119, 3, 125,
    129, 45, 235, 51, 160, 244, 161, 57, 69, 216, 152, 194, 150, 79, 227, 66, 226, 254, 26, 127,
    155, 142, 231, 235, 74, 124, 15, 158, 22, 43, 206, 51, 87, 107, 49, 94, 206, 203, 182, 64,
    104, 55, 191, 81, 245]
  sign :=
    [4, 124, 242, 123, 24, 141, 3, 79, 126, 138, 82, 56, 3, 4, 181, 26, 195, 192, 137, 105, 226,
    119, 242, 27, 53, 166, 11, 72, 252, 71, 102, 153, 120, 7, 119, 85, 16, 219, 142, 208, 64, 41,
    61, 154, 198, 159, 116, 48, 219, 186, 125, 173, 230, 60, 233, 130, 41, 158, 4, 183, 157, 34,
    120, 115, 209]

/-- A push is cut off after it has written the key pair; a look-up comes in between. -/
def cutPush : List (Move Job) :=
  [.start 0 ⟨.new .default true, .push "u" ⟨smallPair, none⟩⟩,
    .start 0 ⟨.new .default true, .keysOf ["u"]⟩,
    .advance 0, .advance 1, .change (.write ⟨"x", [1]⟩), .advance 0, .drop 0]

/-- The key pair of the push was written. -/
theorem pushesOf_cutPush :
    ((idle (.new .memory)).run Job.program cutPush).map (fun s => pushesOf s "u")
      = some [⟨smallPair, none⟩] := by
  decide +kernel

theorem stored_keys_valid_of_cutPush :
    KeysStored (.new .memory) ∧ (∀ userId, Spare cutPush (Key.pubkey userId)) ∧
      ∃ s, (idle (.new .memory)).run Job.program cutPush = some s ∧
        s.world.store.get? (Key.pubkey "u") = some smallPair.encode ∧ Stored smallPair.encode := by
  have hw : KeysStored (.new .memory) :=
    ⟨fun userId => Store.spares_new false true _, fun userId value hvalue => by cases hvalue⟩
  have hmoves (userId : String) : Spare cutPush (Key.pubkey userId) := by
    rintro change hchange write rfl
    obtain rfl : write = ⟨"x", [1]⟩ := by simpa [cutPush] using hchange
    intro hkey
    have hhead := Key.head?_pubkey userId
    rw [← hkey] at hhead
    exact absurd hhead (by decide)
  obtain ⟨s, hs, hpushes⟩ := Option.map_eq_some_iff.1 pushesOf_cutPush
  obtain ⟨hstored, hlast, -⟩ := stored_keys_valid hw hmoves hs
  have hvalue : s.world.store.get? (Key.pubkey "u") = some smallPair.encode := by
    rw [hlast "u", hpushes]
    rfl
  exact ⟨hw, hmoves, s, hs, hvalue, hstored "u" _ hvalue⟩

end KeyIntegrity

end SealedChannel
