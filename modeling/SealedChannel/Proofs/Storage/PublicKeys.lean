import SealedChannel.Proofs.KeyPair
import SealedChannel.Proofs.Program.Ending
import SealedChannel.Storage.PublicKeys

/-!
# Stored key pairs

A key pair is written in one way and read from the store in many: names in any order and with any
escapes, members that do not count, keys left out.  But of a key that is there, only the one base64
text of its bytes is read.

## What is here

* `Store.get?_call_set` — a write that succeeds is in the store, whoever interferes before it.
* `PublicKeys.get?_run_set`, `PublicKeys.run_get_of_encode` — what is left by storing a pair, and
  what is then read.
* `PublicKeys.stored_form` — the stored form of a pair, there and back.
-/

set_option autoImplicit false
namespace SealedChannel

open Program

theorem Store.get?_call_set {s : Store} {limit : Option Duration} {key : String} {value : Bytes}
    (h : (s.call limit (.set key value)).1 = .ok ()) :
    (s.call limit (.set key value)).2.get? key = some value := by
  rcases s.call_cases limit (.set key value) with ⟨e, hs⟩ | ⟨e, hs⟩ | hs
  · rw [hs] at h
    cases h
  · rw [hs] at h
    cases h
  · rw [hs, perform] at h ⊢
    generalize (s.begin (.set key value)).admitWrite = admitted at h ⊢
    obtain ⟨e | _, t⟩ := admitted
    · cases h
    · simp [get?]

namespace PublicKeys

variable {diagnose : Json.Diagnosis} {limit : Duration} {deadline : Option Duration}
  {userId : String} {pair : KeyPair} {w : World}

/-- A pair that has been stored is in the store. -/
theorem get?_run_set (h : ((set limit userId pair).run.run deadline w).1 = .finished (.ok ())) :
    ((set limit userId pair).run.run deadline w).2.store.get? (Key.pubkey userId) =
      some pair.encode := by
  have hset : (set limit userId pair).run.Ensures .calm deadline
      (fun r t => r = .ok () → t.world.store.get? (Key.pubkey userId) = some pair.encode)
      (fun _ => True) (.start w) := by
    refine ensures_run_wrap.2 (.run_store_calm (fun _ => trivial) fun answer store _ hcall hok => ?_)
    cases answer with
    | error e => cases hok
    | ok told =>
      have hget := Store.get?_call_set (congrArg Prod.fst hcall)
      rwa [hcall] at hget
  obtain ⟨_, hget⟩ := hset.of_run.1 _ h
  exact hget rfl

/-- What is read of a stored pair depends on the faults alone. -/
theorem run_get_of_encode (hpair : w.store.get? (Key.pubkey userId) = some pair.encode) :
    ((get diagnose limit userId).run.run none w).1 = .finished
      (match (w.store.call (some limit) (.get (Key.pubkey userId))).1 with
      | .ok _ => .ok (some pair)
      | .error e => .error (.store e)) := by
  have hget : (get diagnose limit userId).run.Ensures .calm none
      (fun r _ => r = match (w.store.call (some limit) (.get (Key.pubkey userId))).1 with
        | .ok _ => .ok (some pair)
        | .error e => .error (.store e)) (fun _ => False) (.start w) := by
    refine ensures_run_bind.2 (ensures_run_wrap.2 (.run_store_calm ?_ fun answer store _ hcall => ?_))
    · exact fun hover => absurd rfl (ne_none_of_isOver hover)
    · have hanswer : (w.store.call (some limit) (.get (Key.pubkey userId))).1 = answer :=
        congrArg Prod.fst hcall
      rw [hanswer]
      cases answer with
      | error e => rfl
      | ok raw =>
        obtain rfl := (Store.call_get hanswer).trans hpair
        simp only [Except.mapError, KeyPair.decode?_encode]
        rfl
  obtain ⟨_, _, hfinished, rfl⟩ := hget.finishes
  exact hfinished

/-- **The stored form of a key pair.**  A pair is read back from its stored form.  Of an object, each
key is read from nothing or `null`, as the empty byte string, or from a string that is its base64
text; no other text is read as the same bytes, and any other value makes the whole object
unreadable.  So whoever reads the key of a user after it has been stored, and before it is replaced,
gets that key unless the read itself fails. -/
theorem stored_form (pair : KeyPair) :
    KeyPair.decode? pair.encode = some pair ∧
    (∀ bs members, Json.parse? bs = some (.object members) →
      (KeyPair.decode? bs = some pair ↔
        (∀ member ∈ members, (Json.unescape? member.1).isSome = true) ∧
          KeyPair.WritesKey (Json.valuesOf "encr" members) pair.encr ∧
          KeyPair.WritesKey (Json.valuesOf "sign" members) pair.sign)) ∧
    (∀ key text text', Base64.decode? text = some key → Base64.decode? text' = some key →
      text = text') ∧
    ∀ diagnose limit limit' deadline userId w w',
      ((set limit userId pair).run.run deadline w).1 = .finished (.ok ()) →
      w'.store.get? (Key.pubkey userId) =
        ((set limit userId pair).run.run deadline w).2.store.get? (Key.pubkey userId) →
      ((get diagnose limit' userId).run.run none w').1 = .finished
        (match (w'.store.call (some limit') (.get (Key.pubkey userId))).1 with
        | .ok _ => .ok (some pair)
        | .error e => .error (.store e)) := by
  refine ⟨pair.decode?_encode, fun bs members h => KeyPair.decode?_object_iff h, ?_, ?_⟩
  · intro key text text' htext htext'
    rw [Base64.decode?_eq_some_iff] at htext htext'
    rw [htext, htext']
  · intro diagnose limit limit' deadline userId w w' hset hsame
    exact run_get_of_encode (hsame.trans (get?_run_set hset))

/-- A pair whose keys are too short to be points. -/
def shortPair : KeyPair :=
  ⟨[4, 1, 2], [4, 3]⟩

/-- A form of the pair in another order, with a name that does not count and escapes in a text. -/
def writtenByHand : Bytes :=
  .ofText "\x7b\"sign\": \"B\\u0041M=\", \"comment\": [], \"encr\": \"BAEC\"\x7d"

theorem stored_form_of_shortPair :
    KeyPair.decode? writtenByHand = some shortPair ∧
      ((set ⟨5⟩ "ada" shortPair).run.run none (.new .memory)).1 = .finished (.ok ()) ∧
      ((get (fun _ => "") ⟨5⟩ "ada").run.run none
        ((set ⟨5⟩ "ada" shortPair).run.run none (.new .memory)).2).1 =
          .finished (.ok (some shortPair)) := by
  obtain ⟨-, hobject, -, hread⟩ := stored_form shortPair
  have hset : ((set ⟨5⟩ "ada" shortPair).run.run none (.new .memory)).1 = .finished (.ok ()) := by
    rfl
  have hparse : Json.parse? writtenByHand = some (.object
      [(.ofText "sign", .string (.ofText "B\\u0041M=")), (.ofText "comment", .array []),
        (.ofText "encr", .string (.ofText "BAEC"))]) := by
    rfl
  refine ⟨(hobject _ _ hparse).2 ⟨by decide +kernel, ?_, ?_⟩, hset,
    hread (fun _ => "") ⟨5⟩ ⟨5⟩ none "ada" (.new .memory) _ hset rfl⟩
  · exact .text (by decide +kernel)
  · exact .text (by decide +kernel)

end PublicKeys

end SealedChannel
