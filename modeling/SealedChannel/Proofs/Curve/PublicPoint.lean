import Mathlib.Data.Int.ModEq
import Mathlib.Data.Nat.Digits.Defs
import SealedChannel.Proofs.Curve.Order
import SealedChannel.Proofs.KeyPair

/-!
# Which byte strings are public points

The check of a public point is compared with the mathematical definition: two numbers written in 32
bytes each, behind a tag, that solve the equation of the curve over the integers modulo the field
prime.

## What is here

* `EncodesPoint` — the five conditions on a byte string.
* `RefusedFor` — the first of the conditions that a byte string fails, as an error.
* `PublicPoint.check_sound` — what is accepted meets the conditions and is read as it is written;
  what does not is refused for the first one that fails.
* `PublicPoint.check_complete` — what meets the conditions is accepted: the test of the group order
  never fails on a point of the curve.
-/

set_option autoImplicit false
namespace SealedChannel
namespace Curve

open Residue

/-! ## The conditions -/

/-- The number that a byte string writes in base 256, its first byte the most significant one. -/
def bigEndian (bs : Bytes) : ℕ :=
  Nat.ofDigits 256 (bs.reverse.map UInt8.toNat)

theorem toNat_eq_bigEndian (bs : Bytes) : bs.toNat = bigEndian bs := by
  rw [Bytes.toNat, bigEndian, Nat.ofDigits_eq_foldr, List.foldr_map, List.foldr_reverse]
  simp [Nat.add_comm]

/-- The number in the first half behind the tag. -/
def xNumber (data : Bytes) : ℕ :=
  bigEndian ((data.drop 1).take 32)

/-- The number in the second half behind the tag. -/
def yNumber (data : Bytes) : ℕ :=
  bigEndian (data.drop 33)

/-- The equation of the curve, over the integers modulo the field prime. -/
def Solves (x y : ℕ) : Prop :=
  (y : ℤ) ^ 2 ≡ x ^ 3 - 3 * x + curveB [ZMOD fieldPrime]

/-- The conditions under which a byte string encodes a public point. -/
structure EncodesPoint (data : Bytes) : Prop where
  length : data.length = 65
  tag : data.head? = some 0x04
  nonzero : 0 < xNumber data ∧ 0 < yNumber data
  bounded : xNumber data < groupOrder ∧ yNumber data < groupOrder
  solves : Solves (xNumber data) (yNumber data)

/-- A byte string fails one of the conditions, and none before it. -/
def RefusedFor (data : Bytes) : PointError → Prop
  | .invalidLength expected got => expected = 65 ∧ got = data.length ∧ data.length ≠ 65
  | .unsupportedEncoding tag => data.length = 65 ∧ data.head? = some tag ∧ tag ≠ 0x04
  | .zeroCoordinate =>
    data.length = 65 ∧ data.head? = some 0x04 ∧ (xNumber data = 0 ∨ yNumber data = 0)
  | .nonCanonicalCoordinate =>
    data.length = 65 ∧ data.head? = some 0x04 ∧ (0 < xNumber data ∧ 0 < yNumber data) ∧
      (groupOrder ≤ xNumber data ∨ groupOrder ≤ yNumber data)
  | .notOnCurve =>
    data.length = 65 ∧ data.head? = some 0x04 ∧ (0 < xNumber data ∧ 0 < yNumber data) ∧
      (xNumber data < groupOrder ∧ yNumber data < groupOrder) ∧
      ¬ Solves (xNumber data) (yNumber data)
  | .wrongSubgroup => False

theorem onCurve_residue_iff (x y : ℕ) : OnCurve (residue x) (residue y) ↔ Solves x y := by
  rw [← equation_iff_onCurve, equation_iff, Solves, ← ZMod.intCast_eq_intCast_iff]
  simp

/-- A byte string that does not encode a point fails a first condition. -/
theorem exists_refusedFor {data : Bytes} (h : ¬ EncodesPoint data) : ∃ e, RefusedFor data e := by
  by_cases hlength : data.length = 65
  · obtain ⟨tag, htag⟩ : ∃ tag, data.head? = some tag := by
      cases data with
      | nil => simp at hlength
      | cons tag _ => exact ⟨tag, rfl⟩
    by_cases h₄ : tag = 0x04
    · subst h₄
      by_cases hzero : xNumber data = 0 ∨ yNumber data = 0
      · exact ⟨.zeroCoordinate, hlength, htag, hzero⟩
      · have hnonzero : 0 < xNumber data ∧ 0 < yNumber data := by omega
        by_cases hlarge : groupOrder ≤ xNumber data ∨ groupOrder ≤ yNumber data
        · exact ⟨.nonCanonicalCoordinate, hlength, htag, hnonzero, hlarge⟩
        · have hbounded : xNumber data < groupOrder ∧ yNumber data < groupOrder := by omega
          exact ⟨.notOnCurve, hlength, htag, hnonzero, hbounded,
            fun hsolves => h ⟨hlength, htag, hnonzero, hbounded, hsolves⟩⟩
    · exact ⟨.unsupportedEncoding tag, hlength, htag, h₄⟩
  · exact ⟨.invalidLength 65 data.length, rfl, rfl, hlength⟩

namespace PublicPoint

/-! ## The check -/

variable {data : Bytes}

theorem toNat_first (h : data.length = encodingLength) :
    (Coordinate.first data h).toNat = xNumber data :=
  toNat_eq_bigEndian _

theorem toNat_second (h : data.length = encodingLength) :
    (Coordinate.second data h).toNat = yNumber data :=
  toNat_eq_bigEndian _

theorem onCurve_halves_iff (h : data.length = encodingLength) :
    OnCurve (Coordinate.first data h).toResidue (Coordinate.second data h).toResidue ↔
      Solves (xNumber data) (yNumber data) := by
  rw [Coordinate.toResidue, Coordinate.toResidue, toNat_first, toNat_second, onCurve_residue_iff]

/-- A byte string is refused for the first condition that it fails. -/
theorem check_of_refusedFor {e : PointError} (h : RefusedFor data e) : check data = .error e := by
  cases e with
  | invalidLength expected got =>
    obtain ⟨rfl, rfl, hlength⟩ := h
    exact dif_neg hlength
  | unsupportedEncoding tag =>
    obtain ⟨hlength, htag, hne⟩ := h
    rw [check, dif_pos (show data.length = encodingLength from hlength)]
    simp [List.headD_eq_head?_getD, htag, uncompressedTag, hne]
  | zeroCoordinate =>
    obtain ⟨hlength, htag, hzero⟩ := h
    rw [check, dif_pos (show data.length = encodingLength from hlength)]
    simp [List.headD_eq_head?_getD, htag, uncompressedTag, toNat_first, toNat_second, hzero]
  | nonCanonicalCoordinate =>
    obtain ⟨hlength, htag, hnonzero, hlarge⟩ := h
    have hzero : ¬ (xNumber data = 0 ∨ yNumber data = 0) := by omega
    rw [check, dif_pos (show data.length = encodingLength from hlength)]
    simp [List.headD_eq_head?_getD, htag, uncompressedTag, toNat_first, toNat_second, hzero, hlarge]
  | notOnCurve =>
    obtain ⟨hlength, htag, hnonzero, hbounded, hsolves⟩ := h
    have hzero : ¬ (xNumber data = 0 ∨ yNumber data = 0) := by omega
    have hlarge : ¬ (groupOrder ≤ xNumber data ∨ groupOrder ≤ yNumber data) := by omega
    rw [check, dif_pos (show data.length = encodingLength from hlength)]
    simp [List.headD_eq_head?_getD, htag, uncompressedTag, toNat_first, toNat_second, hzero, hlarge,
      onCurve_halves_iff, hsolves]
  | wrongSubgroup => exact h.elim

/-- A byte string that meets the conditions is accepted. -/
theorem exists_check_eq_ok (h : EncodesPoint data) : ∃ P, check data = .ok P := by
  have hlength : data.length = encodingLength := h.length
  have hcurve := (onCurve_halves_iff hlength).2 h.solves
  have horder : (Jacobian.ofAffine (Coordinate.first data hlength).toResidue
      (Coordinate.second data hlength).toResidue).hasGroupOrder = true :=
    (Jacobian.represents_ofAffine hcurve).hasGroupOrder_iff.2 (groupOrder_nsmul _)
  have hzero : ¬ (xNumber data = 0 ∨ yNumber data = 0) := by have := h.nonzero; omega
  have hlarge : ¬ (groupOrder ≤ xNumber data ∨ groupOrder ≤ yNumber data) := by
    have := h.bounded
    omega
  rw [check, dif_pos hlength]
  simp [List.headD_eq_head?_getD, h.tag, uncompressedTag, toNat_first, toNat_second, hzero, hlarge,
    hcurve, horder]

theorem encodesPoint_of_check {P : PublicPoint} (h : check data = .ok P) : EncodesPoint data := by
  by_contra hnot
  obtain ⟨e, he⟩ := exists_refusedFor hnot
  rw [check_of_refusedFor he] at h
  cases h

/-- **Soundness of the check.**  An accepted byte string meets the five conditions, its point holds
exactly its two halves, and the point is encoded as it was read.  A byte string that does not meet
them fails a first one, and is refused for that one. -/
theorem check_sound (data : Bytes) :
    (∀ P, check data = .ok P → EncodesPoint data ∧
      P.x.bytes = (data.drop 1).take 32 ∧ P.y.bytes = data.drop 33 ∧
      P.encode = data ∧ check P.encode = .ok P) ∧
    (¬ EncodesPoint data → ∃ e, RefusedFor data e) ∧
    ∀ e, RefusedFor data e → check data = .error e ∧ ofBytes? data = none := by
  refine ⟨fun P h => ?_, exists_refusedFor, fun e he => ?_⟩
  · have hencode := encode_of_check h
    have hx : P.x.bytes.length = 32 := P.x.length_eq
    refine ⟨encodesPoint_of_check h, ?_, ?_, hencode, by rwa [hencode]⟩
    · rw [← hencode, encode, encodeUncompressed]
      simp [hx]
    · rw [← hencode, encode, encodeUncompressed]
      simp [hx]
  · have hcheck := check_of_refusedFor he
    exact ⟨hcheck, by rw [ofBytes?, hcheck]; rfl⟩

/-- A number in 32 bytes. -/
def coordinateBytes (n : Nat) : Bytes :=
  (List.range 32).reverse.map fun i => UInt8.ofNat (n / 256 ^ i)

/-- The encoding of the base point. -/
def generatorBytes : Bytes :=
  uncompressedTag :: (coordinateBytes generatorX ++ coordinateBytes generatorY)

theorem encodesPoint_generatorBytes : EncodesPoint generatorBytes where
  length := by decide
  tag := rfl
  nonzero := by decide +kernel
  bounded := by decide +kernel
  solves := by
    rw [← onCurve_residue_iff]
    decide +kernel

/-- The encoding of the point opposite to the base point: the `x` coordinate is the same. -/
def oppositeBytes : Bytes :=
  uncompressedTag :: (coordinateBytes generatorX ++ coordinateBytes (fieldPrime - generatorY))

theorem encodesPoint_oppositeBytes : EncodesPoint oppositeBytes where
  length := by decide
  tag := rfl
  nonzero := by decide +kernel
  bounded := by decide +kernel
  solves := by
    rw [← onCurve_residue_iff]
    decide +kernel

/-- The base point is read as it is written; under the tag of another encoding it is refused. -/
theorem check_sound_of_generatorBytes :
    (∃ P, check generatorBytes = .ok P ∧ P.encode = generatorBytes ∧ check P.encode = .ok P) ∧
      check (0x06 :: generatorBytes.tail) = .error (.unsupportedEncoding 0x06) := by
  obtain ⟨P, hP⟩ := exists_check_eq_ok encodesPoint_generatorBytes
  obtain ⟨-, -, -, hencode, hagain⟩ := (check_sound generatorBytes).1 P hP
  have hrefused : RefusedFor (0x06 :: generatorBytes.tail) (.unsupportedEncoding 0x06) :=
    ⟨by decide, rfl, by decide⟩
  exact ⟨⟨P, hP, hencode, hagain⟩, ((check_sound _).2.2 _ hrefused).1⟩

/-- **Completeness of the check.**  The group order annihilates every point of the curve, so its
computation in triples always ends in the identity, the last check refuses nothing, and whatever
meets the five conditions is accepted. -/
theorem check_complete :
    (∀ P : curve.Point, (groupOrder - 1) • P + P = 0) ∧
    (∀ x y : Residue, OnCurve x y →
      (Jacobian.add (.scale 256 (groupOrder - 1) (.ofAffine x y)) (.ofAffine x y)).isIdentity
        = true) ∧
    (∀ data, check data ≠ .error .wrongSubgroup) ∧
    ∀ data, EncodesPoint data → ∃ P, check data = .ok P := by
  refine ⟨fun P => ?_, fun x y h => ?_, fun data h => ?_, fun data => exists_check_eq_ok⟩
  · rw [← succ_nsmul]
    exact groupOrder_nsmul P
  · exact (Jacobian.represents_ofAffine h).hasGroupOrder_iff.2 (groupOrder_nsmul _)
  · by_cases hdata : EncodesPoint data
    · obtain ⟨P, hP⟩ := exists_check_eq_ok hdata
      rw [hP] at h
      cases h
    · obtain ⟨e, he⟩ := exists_refusedFor hdata
      rw [check_of_refusedFor he] at h
      cases h
      exact he

/-- The base point is accepted. -/
theorem check_complete_of_generatorBytes :
    EncodesPoint generatorBytes ∧ ∃ P, check generatorBytes = .ok P :=
  ⟨encodesPoint_generatorBytes, check_complete.2.2.2 _ encodesPoint_generatorBytes⟩

end PublicPoint

end Curve

end SealedChannel
