import SealedChannel.Proofs.Curve.PublicPoint

/-!
# Tampering with a public point

At most two points of the curve share an `x` coordinate, and their `y` coordinates add up to the
field prime.  The field prime leaves the remainder three when divided by four; no two numbers that
differ in one binary digit have a sum with that remainder.  So a public point with one bit of its
tag or of its `y` coordinate flipped is refused, without exception.

## What is here

* `flipBit` — a byte string with one bit flipped.
* `EncodesPoint.yNumber_eq_or_add_eq` — the two points over one `x` coordinate.
* `bigEndian_flipBit` — what a flipped bit does to the number that a byte string writes.
* `PublicPoint.tampering_detected` — the check refuses what a flipped bit makes of a point.
-/

set_option autoImplicit false
namespace SealedChannel
namespace Curve

/-! ## Two points over one coordinate -/

/-- Two numbers below the field prime that solve the equation for the same `x` are the same, or
opposite to each other. -/
theorem Solves.eq_or_add_eq {x y y' : ℕ} (h : Solves x y) (h' : Solves x y')
    (hy : 0 < y ∧ y < fieldPrime) (hy' : 0 < y' ∧ y' < fieldPrime) :
    y = y' ∨ y + y' = fieldPrime := by
  have hsquares : (y : ZMod fieldPrime) ^ 2 = (y' : ZMod fieldPrime) ^ 2 := by
    have := (ZMod.intCast_eq_intCast_iff _ _ _).2 (h.trans h'.symm)
    simpa using this
  rcases sq_eq_sq_iff_eq_or_eq_neg.1 hsquares with hsame | hopposite
  · left
    exact ((ZMod.natCast_eq_natCast_iff _ _ _).1 hsame).eq_of_lt_of_lt hy.2 hy'.2
  · right
    have hzero : ((y + y' : ℕ) : ZMod fieldPrime) = 0 := by simp [hopposite]
    obtain ⟨k, hk⟩ := (ZMod.natCast_eq_zero_iff _ _).1 hzero
    -- The sum is a multiple of the field prime, above zero and below twice the field prime.
    have hpositive : 0 < k := by
      by_contra hnot
      have : k = 0 := by omega
      subst this
      omega
    have hsmall : k < 2 := by
      by_contra hnot
      have := Nat.mul_le_mul_left fieldPrime (show 2 ≤ k by omega)
      omega
    have hone : k = 1 := by omega
    rw [hk, hone, Nat.mul_one]

theorem EncodesPoint.yNumber_bounds {data : Bytes} (h : EncodesPoint data) :
    0 < yNumber data ∧ yNumber data < fieldPrime :=
  ⟨h.nonzero.2, h.bounded.2.trans groupOrder_lt_fieldPrime⟩

/-- Two encodings of points with the same `x` coordinate have the same `y` coordinate, or two that
add up to the field prime. -/
theorem EncodesPoint.yNumber_eq_or_add_eq {data data' : Bytes} (h : EncodesPoint data)
    (h' : EncodesPoint data') (hx : xNumber data = xNumber data') :
    yNumber data = yNumber data' ∨ yNumber data + yNumber data' = fieldPrime :=
  h.solves.eq_or_add_eq (hx ▸ h'.solves) h.yNumber_bounds h'.yNumber_bounds

/-! ## A flipped bit -/

/-- A byte with one bit flipped, counted from the least significant one. -/
def flipByte (bit : ℕ) (b : UInt8) : UInt8 :=
  b ^^^ UInt8.ofNat (2 ^ bit)

/-- A byte string with one bit of one byte flipped. -/
def flipBit (data : Bytes) (index bit : ℕ) : Bytes :=
  data.modify index (flipByte bit)

@[simp] theorem length_flipBit (data : Bytes) (index bit : ℕ) :
    (flipBit data index bit).length = data.length := by
  simp [flipBit]

/-- A byte and the same byte with one bit flipped differ, and their sum does not leave the remainder
three: it is even, or one more than a multiple of four where the bit is the last one. -/
theorem toNat_flipByte {bit : ℕ} (hbit : bit < 8) (b : UInt8) :
    (flipByte bit b).toNat ≠ b.toNat ∧ ((flipByte bit b).toNat + b.toNat) % 4 ≠ 3 := by
  have hall : ∀ bit < 8, ∀ n < 256, (flipByte bit (UInt8.ofNat n)).toNat ≠ n ∧
      ((flipByte bit (UInt8.ofNat n)).toNat + n) % 4 ≠ 3 := by
    decide +kernel
  have h := hall bit hbit b.toNat b.toNat_lt
  rwa [UInt8.ofNat_toNat] at h

theorem bigEndian_append (front back : Bytes) :
    bigEndian (front ++ back) = bigEndian back + 256 ^ back.length * bigEndian front := by
  simp [bigEndian, Nat.ofDigits_append]

theorem bigEndian_cons (b : UInt8) (back : Bytes) :
    bigEndian (b :: back) = bigEndian back + 256 ^ back.length * b.toNat := by
  simp [bigEndian, Nat.ofDigits_append]

/-- A flipped bit changes the number that a byte string writes, and the two numbers have no sum with
the remainder three. -/
theorem bigEndian_flipBit {half : Bytes} {index bit : ℕ} (hindex : index < half.length)
    (hbit : bit < 8) :
    bigEndian (flipBit half index bit) ≠ bigEndian half ∧
      (bigEndian (flipBit half index bit) + bigEndian half) % 4 ≠ 3 := by
  obtain ⟨front, b, back, rfl, -, hflip⟩ := List.exists_of_modify (flipByte bit) hindex
  rw [flipBit, hflip]
  simp only [bigEndian_append, bigEndian_cons, List.length_cons]
  obtain ⟨hdiffer, hsum⟩ := toNat_flipByte hbit b
  refine ⟨fun h => hdiffer ?_, ?_⟩
  · have hpower : 0 < 256 ^ back.length := by positivity
    exact Nat.eq_of_mul_eq_mul_left hpower (by omega)
  · cases back with
    | nil =>
      have hempty : bigEndian [] = 0 := rfl
      simp only [List.length_nil, Nat.pow_zero, Nat.pow_one, Nat.zero_add, Nat.one_mul, hempty]
      omega
    | cons c back =>
      -- The flipped byte is not the last one, so both numbers have the same last binary digit.
      have heven : ∀ n, 256 ^ (c :: back).length * n = 2 * (128 * 256 ^ back.length * n) := by
        intro n
        rw [List.length_cons, Nat.pow_succ]
        ring
      rw [heven, heven]
      omega

/-- Behind the tag and the first half, a flipped bit leaves the first half as it is. -/
theorem xNumber_flipBit {data : Bytes} {index : ℕ} (bit : ℕ) (hindex : 33 ≤ index) :
    xNumber (flipBit data index bit) = xNumber data := by
  have hshort : ((data.drop 1).take 32).length ≤ index - 1 := by
    have := List.length_take_le 32 (data.drop 1)
    omega
  rw [xNumber, flipBit, List.drop_modify_of_ge _ _ _ _ (by omega), List.take_modify,
    List.modify_eq_self hshort, xNumber]

/-- Behind the tag and the first half, a bit is flipped in the second half. -/
theorem yNumber_flipBit {data : Bytes} {index : ℕ} (bit : ℕ) (hindex : 33 ≤ index) :
    yNumber (flipBit data index bit) = bigEndian (flipBit (data.drop 33) (index - 33) bit) := by
  rw [yNumber, flipBit, List.drop_modify_of_ge _ _ _ _ hindex, flipBit]

/-- No bit flipped in the second half of an encoding makes another encoding. -/
theorem EncodesPoint.not_flipBit_second {data : Bytes} (h : EncodesPoint data) {index bit : ℕ}
    (hindex : 33 ≤ index ∧ index < 65) (hbit : bit < 8) :
    ¬ EncodesPoint (flipBit data index bit) := by
  intro hflip
  have hlength : index - 33 < (data.drop 33).length := by
    rw [List.length_drop, h.length]
    omega
  obtain ⟨hdiffer, hsum⟩ := bigEndian_flipBit hlength hbit
  have hfield : fieldPrime % 4 = 3 := by decide
  rw [← yNumber_flipBit bit hindex.1] at hdiffer hsum
  rcases hflip.yNumber_eq_or_add_eq h (xNumber_flipBit bit hindex.1) with hsame | hopposite
  · exact hdiffer hsame
  · refine hsum ?_
    rw [← hfield, ← hopposite]
    rfl

/-- A bit flipped in the tag of an encoding makes a tag that is refused. -/
theorem EncodesPoint.refusedFor_flipBit_tag {data : Bytes} (h : EncodesPoint data) {bit : ℕ}
    (hbit : bit < 8) :
    RefusedFor (flipBit data 0 bit) (.unsupportedEncoding (flipByte bit 0x04)) := by
  refine ⟨by rw [length_flipBit, h.length], ?_, ?_⟩
  · rw [flipBit, ← List.modifyHead_eq_modify_zero, List.head?_modifyHead, h.tag]
    rfl
  · intro hsame
    exact (toNat_flipByte hbit 0x04).1 (congrArg UInt8.toNat hsame)

namespace PublicPoint

/-- **Tampering with the tag or with `y` is detected.**  Of an accepted byte string, whatever else is
accepted with the same first half has the same second number, or the one that adds up to the field
prime with it.  A bit flipped in the tag is refused as the tag that it makes.  A bit flipped in the
second half is refused as well, the last one not excepted: the opposite number never differs in that
bit alone. -/
theorem tampering_detected {data : Bytes} {P : PublicPoint} (h : check data = .ok P) :
    (∀ data' P', check data' = .ok P' → (data'.drop 1).take 32 = (data.drop 1).take 32 →
      yNumber data' = yNumber data ∨ yNumber data' + yNumber data = fieldPrime) ∧
    (∀ bit < 8,
      check (flipBit data 0 bit) = .error (.unsupportedEncoding (flipByte bit 0x04))) ∧
    ∀ index, 33 ≤ index → index < 65 → ∀ bit < 8,
      ∃ e, check (flipBit data index bit) = .error e := by
  have hdata := encodesPoint_of_check h
  refine ⟨fun data' P' h' hx => ?_, fun bit hbit => ?_, fun index hlow hhigh bit hbit => ?_⟩
  · have hx' : xNumber data' = xNumber data := congrArg bigEndian hx
    exact (encodesPoint_of_check h').yNumber_eq_or_add_eq hdata hx'
  · exact check_of_refusedFor (hdata.refusedFor_flipBit_tag hbit)
  · obtain ⟨e, he⟩ := exists_refusedFor (hdata.not_flipBit_second ⟨hlow, hhigh⟩ hbit)
    exact ⟨e, check_of_refusedFor he⟩

/-- The base point and its opposite have the same `x`, and `y` coordinates that add up to the field
prime; the base point is refused with a bit of its tag flipped, and with its last bit flipped. -/
theorem tampering_detected_of_generatorBytes :
    yNumber oppositeBytes + yNumber generatorBytes = fieldPrime ∧
    check (flipBit generatorBytes 0 1) = .error (.unsupportedEncoding 0x06) ∧
    ∃ e, check (flipBit generatorBytes 64 0) = .error e := by
  obtain ⟨P, hP⟩ := exists_check_eq_ok encodesPoint_generatorBytes
  obtain ⟨Q, hQ⟩ := exists_check_eq_ok encodesPoint_oppositeBytes
  obtain ⟨hroots, htag, hsecond⟩ := tampering_detected hP
  have hdiffer : yNumber oppositeBytes ≠ yNumber generatorBytes := by decide +kernel
  exact ⟨(hroots oppositeBytes Q hQ (by decide +kernel)).resolve_left hdiffer, htag 1 (by decide),
    hsecond 64 (by decide) (by decide) 0 (by decide)⟩

end PublicPoint

end Curve

end SealedChannel
