import SealedChannel.KeyPair.Codec
import SealedChannel.Proofs.Json.Members
import SealedChannel.Proofs.Json.Print
import SealedChannel.Proofs.Text.Base64

/-!
# Key pairs, checked and stored

## What is here

* `PublicPoint.encode_of_check` — a checked byte string is the encoding of its point.
* `KeyPair.check_eq_ok_iff` — a valid pair is the encodings of two different points.
* `KeyPair.decode?_encode` — a stored pair is read back.
* `KeyPair.WritesKey`, `KeyPair.decode?_object_iff` — the objects that are read as a pair.
-/

set_option autoImplicit false
namespace SealedChannel

open Curve

namespace Curve

/-- The two halves of an uncompressed point and its tag are the whole of it. -/
theorem encodeUncompressed_first_second {data : Bytes} (h : data.length = encodingLength)
    (htag : data.headD 0 = uncompressedTag) :
    encodeUncompressed (.first data h) (.second data h) = data := by
  cases data with
  | nil => exact absurd h (by decide)
  | cons tag rest =>
    obtain rfl : tag = uncompressedTag := htag
    rw [encodeUncompressed, Coordinate.first, Coordinate.second]
    simp [Nat.add_comm 1]

namespace PublicPoint

/-- A byte string that passes every check is the encoding of its point. -/
theorem encode_of_check {data : Bytes} {P : PublicPoint} (h : check data = .ok P) :
    P.encode = data := by
  rw [check] at h
  split at h
  · rename_i hlength
    dsimp only at h
    split at h
    · cases h
    · rename_i htag
      split at h
      · cases h
      · split at h
        · cases h
        · split at h
          · split at h
            · cases h
              exact encodeUncompressed_first_second hlength (Decidable.not_not.1 htag)
            · cases h
          · cases h
  · cases h

/-- Two points are the same if and only if their encodings are. -/
theorem same_iff (P Q : PublicPoint) : same P Q = true ↔ P.encode = Q.encode := by
  rw [same, Bool.and_eq_true, Bytes.same_iff, Bytes.same_iff, encode, encode, encodeUncompressed,
    encodeUncompressed, List.cons.injEq, eq_self_iff_true, true_and]
  refine ⟨fun h => by rw [h.1, h.2], fun h => List.append_inj h ?_⟩
  rw [P.x.length_eq, Q.x.length_eq]

end PublicPoint

end Curve

namespace KeyPair

/-- **Valid pairs.**  A pair passes the check if and only if its byte strings pass theirs and
differ. -/
theorem check_eq_ok_iff {pair : KeyPair} {P Q : PublicPoint} :
    pair.check = .ok (P, Q) ↔
      PublicPoint.check pair.encr = .ok P ∧ PublicPoint.check pair.sign = .ok Q ∧
        pair.encr ≠ pair.sign := by
  rw [check]
  cases hencr : PublicPoint.check pair.encr with
  | error e => simp
  | ok P' =>
    cases hsign : PublicPoint.check pair.sign with
    | error e => simp
    | ok Q' =>
      have hsame := PublicPoint.same_iff P' Q'
      rw [PublicPoint.encode_of_check hencr, PublicPoint.encode_of_check hsign] at hsame
      cases hb : P'.same Q' <;> simp_all

/-! ## Stored pairs -/

theorem wellFormed_toJson (pair : KeyPair) : Json.WellFormed pair.toJson :=
  ⟨Json.isQuotable_escape _, Json.isQuotable_escape _, Json.isQuotable_escape _,
    Json.isQuotable_escape _, trivial⟩

theorem keyOfJson?_ofText (bs : Bytes) : keyOfJson? (.ofText (Base64.encode bs)) = some bs := by
  rw [Json.ofText, keyOfJson?]
  · change (Json.text? (.ofText (Base64.encode bs))).bind Base64.decode? = some bs
    rw [Json.text?_ofText, Option.bind_some, Base64.decode?_encode]
  · rintro ⟨⟩

theorem ofJson?_toJson (pair : KeyPair) : ofJson? pair.toJson = some pair := by
  have hmembers : Json.Record.ofJson? ["encr", "sign"] pair.toJson = some
      ⟨false, [("encr", .ofText (Base64.encode pair.encr)),
        ("sign", .ofText (Base64.encode pair.sign))]⟩ := by
    rw [toJson, Json.Record.ofJson?_record]
    rfl
  rw [ofJson?, hmembers]
  change (keyOfJson? (.ofText (Base64.encode pair.encr))).bind (fun encr =>
    (keyOfJson? (.ofText (Base64.encode pair.sign))).bind fun sign => some ⟨encr, sign⟩) = some pair
  rw [keyOfJson?_ofText, keyOfJson?_ofText]
  rfl

/-- **A stored pair is read back.** -/
@[simp]
theorem decode?_encode (pair : KeyPair) : decode? pair.encode = some pair := by
  rw [decode?, encode, Json.parse?_print pair.wellFormed_toJson, Option.bind_some, ofJson?_toJson]

/-! ## The forms of a pair -/

/-- The values that may stand for a key: nothing or `null` for the empty byte string, and a string
that is the base64 text of the key. -/
inductive WritesKey : List Json → Bytes → Prop
  | absent : WritesKey [] []
  | null : WritesKey [.null] []
  | text {raw key : Bytes} (h : Json.unescape? raw = some (Base64.encode key)) :
    WritesKey [.string raw] key

/-- There is at most one value. -/
theorem WritesKey.length_le {values : List Json} {key : Bytes} (h : WritesKey values key) :
    values.length ≤ 1 := by
  cases h <;> simp

theorem keyOfJson?_eq_some_iff {value : Json} {key : Bytes} :
    keyOfJson? value = some key ↔ WritesKey [value] key := by
  cases value with
  | null =>
    refine ⟨?_, ?_⟩
    · rintro ⟨⟩
      exact .null
    · rintro ⟨⟩
      rfl
  | string raw =>
    change (Json.unescape? raw).bind Base64.decode? = some key ↔ _
    simp only [Option.bind_eq_some_iff, Base64.decode?_eq_some_iff]
    refine ⟨?_, ?_⟩
    · rintro ⟨_, hraw, rfl⟩
      exact .text hraw
    · rintro ⟨⟩
      exact ⟨_, ‹_›, rfl⟩
  | _ => exact ⟨fun h => (by cases h), fun h => (by cases h)⟩

/-- A key in an object, from the value that stands there, if there is one. -/
theorem defaulted_eq_some_iff {r : Json.Record} {name : String} {key : Bytes} :
    r.defaulted name [] keyOfJson? = some key ↔ WritesKey (r.get? name).toList key := by
  rw [Json.Record.defaulted]
  cases r.get? name with
  | none =>
    refine ⟨?_, ?_⟩
    · rintro ⟨⟩
      exact .absent
    · rintro ⟨⟩
      rfl
  | some value => exact keyOfJson?_eq_some_iff

theorem ofJson?_object_iff {members : List (Bytes × Json)} {pair : KeyPair} :
    ofJson? (.object members) = some pair ↔
      (∀ member ∈ members, (Json.unescape? member.1).isSome = true) ∧
        WritesKey (Json.valuesOf "encr" members) pair.encr ∧
        WritesKey (Json.valuesOf "sign" members) pair.sign := by
  have hofJson : ofJson? (.object members) = some pair ↔
      ∃ r, Json.Record.ofObject? ["encr", "sign"] members = some r ∧
        WritesKey (r.get? "encr").toList pair.encr ∧
        WritesKey (r.get? "sign").toList pair.sign := by
    rw [ofJson?, Json.Record.ofJson?]
    simp only [Option.bind_eq_bind, Option.bind_eq_some_iff, defaulted_eq_some_iff]
    refine exists_congr fun r => and_congr_right fun _ => ⟨?_, ?_⟩
    · rintro ⟨encr, hencr, sign, hsign, ⟨⟩⟩
      exact ⟨hencr, hsign⟩
    · rintro ⟨hencr, hsign⟩
      exact ⟨_, hencr, _, hsign, rfl⟩
  rw [hofJson]
  refine ⟨?_, ?_⟩
  · rintro ⟨r, hr, hencr, hsign⟩
    rw [← Json.Record.get?_of_ofObject? hr (by simp)] at hencr hsign
    exact ⟨(Json.Record.exists_ofObject?_iff.1 ⟨r, hr⟩).1, hencr, hsign⟩
  · rintro ⟨hnames, hencr, hsign⟩
    obtain ⟨r, hr⟩ : ∃ r, Json.Record.ofObject? ["encr", "sign"] members = some r := by
      refine Json.Record.exists_ofObject?_iff.2 ⟨hnames, ?_⟩
      simpa using ⟨hencr.length_le, hsign.length_le⟩
    rw [Json.Record.get?_of_ofObject? hr (by simp)] at hencr hsign
    exact ⟨r, hr, hencr, hsign⟩

/-- **The objects that are read as a pair.**  Every name is text, and each key stands there in one of
its forms, of which base64 is one. -/
theorem decode?_object_iff {bs : Bytes} {members : List (Bytes × Json)} {pair : KeyPair}
    (h : Json.parse? bs = some (.object members)) :
    decode? bs = some pair ↔ (∀ member ∈ members, (Json.unescape? member.1).isSome = true) ∧
      WritesKey (Json.valuesOf "encr" members) pair.encr ∧
      WritesKey (Json.valuesOf "sign" members) pair.sign := by
  rw [decode?, h, Option.bind_some, ofJson?_object_iff]

end KeyPair

end SealedChannel
