import Mathlib.AlgebraicGeometry.EllipticCurve.Affine.Point
import Mathlib.Tactic.LinearCombination
import SealedChannel.Curve.Jacobian
import SealedChannel.Proofs.Curve.Primality

/-!
# Triples as points of the curve

The group law on triples never divides, the group law of the curve does.  Both are the same: a
triple stands for a point, and doubling, adding and multiplying a triple does so to the point.

## What is here

* `Residue.toField` — residues as elements of the field, with one `simp` lemma for each operation.
* `curve` — the curve as a Weierstrass curve over that field; `equation_iff_onCurve`,
  `nonsingular_of_onCurve`.
* `Jacobian.Represents` — a triple stands for a point.
* `Jacobian.Represents.double`, `Jacobian.Represents.add`, `Jacobian.Represents.scale` — the
  operations on triples are those of the group of the curve.
-/

set_option autoImplicit false
namespace SealedChannel
namespace Curve

open WeierstrassCurve.Affine

/-! ## Residues as elements of a field -/

namespace Residue

/-- The element of the field that a residue stands for. -/
def toField (a : Residue) : ZMod fieldPrime :=
  (a.val : ZMod fieldPrime)

@[simp]
theorem toField_add (a b : Residue) : toField (a + b) = toField a + toField b := by
  simp [toField, Fin.val_add, ZMod.natCast_mod]

@[simp]
theorem toField_mul (a b : Residue) : toField (a * b) = toField a * toField b := by
  simp [toField, Fin.val_mul, ZMod.natCast_mod]

@[simp]
theorem toField_sub (a b : Residue) : toField (a - b) = toField a - toField b := by
  rw [toField, Fin.val_sub, ZMod.natCast_mod, Nat.cast_add, Nat.cast_sub b.isLt.le]
  simp only [toField, CharP.cast_eq_zero]
  ring

@[simp]
theorem toField_residue (n : ℕ) : toField (residue n) = n :=
  ZMod.natCast_mod n fieldPrime

@[simp]
theorem toField_ofNat (n : ℕ) [n.AtLeastTwo] :
    toField (no_index (OfNat.ofNat n : Residue)) = (OfNat.ofNat n : ZMod fieldPrime) :=
  toField_residue n

@[simp]
theorem toField_one : toField 1 = 1 :=
  (toField_residue 1).trans Nat.cast_one

@[simp]
theorem toField_zero : toField 0 = 0 :=
  (toField_residue 0).trans Nat.cast_zero

theorem toField_injective : Function.Injective toField := by
  intro a b h
  rw [toField, toField, ZMod.natCast_eq_natCast_iff', Nat.mod_eq_of_lt a.isLt,
    Nat.mod_eq_of_lt b.isLt] at h
  exact Fin.ext h

@[simp]
theorem toField_eq_zero_iff (a : Residue) : toField a = 0 ↔ a = 0 := by
  rw [← toField_zero, toField_injective.eq_iff]

end Residue

open Residue

/-! ## The curve -/

/-- The curve as a Weierstrass curve. -/
def curve : WeierstrassCurve.Affine (ZMod fieldPrime) :=
  ⟨0, 0, 0, -3, curveB⟩

theorem equation_iff (x y : ZMod fieldPrime) :
    curve.Equation x y ↔ y ^ 2 = x ^ 3 - 3 * x + curveB := by
  rw [WeierstrassCurve.Affine.equation_iff]
  simp [curve, sub_eq_add_neg]

theorem equation_iff_onCurve (x y : Residue) :
    curve.Equation (toField x) (toField y) ↔ OnCurve x y := by
  rw [equation_iff, OnCurve, ← toField_injective.eq_iff]
  simp [pow_succ]

/-- The curve has no singular point. -/
theorem discriminant_ne_zero : curve.Δ ≠ 0 := by
  have hΔ : curve.Δ = ((1728 - 432 * curveB ^ 2 : ℤ) : ZMod fieldPrime) := by
    simp only [WeierstrassCurve.Δ, WeierstrassCurve.b₂, WeierstrassCurve.b₄, WeierstrassCurve.b₆,
      WeierstrassCurve.b₈, curve]
    push_cast
    ring
  rw [hΔ, ne_eq, ZMod.intCast_zmod_eq_zero_iff_dvd]
  decide +kernel

theorem nonsingular_iff (x y : ZMod fieldPrime) : curve.Nonsingular x y ↔ curve.Equation x y :=
  (equation_iff_nonsingular_of_Δ_ne_zero discriminant_ne_zero).symm

theorem nonsingular_of_onCurve {x y : Residue} (h : OnCurve x y) :
    curve.Nonsingular (toField x) (toField y) :=
  (nonsingular_iff _ _).2 ((equation_iff_onCurve x y).2 h)

theorem negY_eq (x y : ZMod fieldPrime) : curve.negY x y = -y := by
  simp [negY, curve]

theorem addX_eq (x₁ x₂ slope : ZMod fieldPrime) :
    curve.addX x₁ x₂ slope = slope ^ 2 - x₁ - x₂ := by
  simp [addX, curve]

theorem addY_eq (x₁ x₂ y₁ slope : ZMod fieldPrime) :
    curve.addY x₁ x₂ y₁ slope = slope * (x₁ - curve.addX x₁ x₂ slope) - y₁ := by
  rw [addY, negY_eq, negAddY]
  ring

theorem two_ne_zero : (2 : ZMod fieldPrime) ≠ 0 := by
  have h : toField 2 ≠ 0 := by
    rw [ne_eq, toField_eq_zero_iff]
    decide
  simpa using h

/-- A point whose `y` coordinate is not zero is not its own opposite. -/
theorem ne_negY {x y : ZMod fieldPrime} (hy : y ≠ 0) : y ≠ curve.negY x y := by
  intro h
  rw [negY_eq] at h
  have hdouble : 2 * y = 0 := by linear_combination h
  exact (mul_ne_zero two_ne_zero hy) hdouble

/-! ## Triples and points -/

namespace Jacobian

/-- A triple stands for a point. -/
inductive Represents (J : Jacobian) : curve.Point → Prop
  | identity (hz : J.z = 0) : Represents J 0
  | affine {x y : ZMod fieldPrime} (hxy : curve.Nonsingular x y) (hz : J.z ≠ 0)
      (hx : toField J.x = x * toField J.z ^ 2) (hy : toField J.y = y * toField J.z ^ 3) :
      Represents J (.some x y hxy)

variable {J K : Jacobian} {P Q : curve.Point}

/-- The triple of a point of the curve stands for it. -/
theorem represents_ofAffine {x y : Residue} (h : OnCurve x y) :
    (ofAffine x y).Represents (.some _ _ (nonsingular_of_onCurve h)) :=
  .affine _ (show (1 : Residue) ≠ 0 by decide) (by simp [ofAffine]) (by simp [ofAffine])

/-- A triple is taken for the identity if and only if it stands for it. -/
theorem Represents.isIdentity_iff (h : J.Represents P) : J.isIdentity = true ↔ P = 0 := by
  rw [isIdentity, beq_iff_eq]
  cases h with
  | identity hz => simp [hz]
  | affine hxy hz => simp [hz, Point.some_ne_zero]

/-- **Doubling.** -/
theorem Represents.double (h : J.Represents P) : J.double.Represents (P + P) := by
  cases h with
  | identity hz =>
    rw [add_zero]
    exact .identity (by simp [Jacobian.double, hz])
  | @affine x y hxy hz hx hy =>
    have hz' : toField J.z ≠ 0 := by simpa using hz
    by_cases hzero : y = 0
    · -- a point of order two: the tangent is vertical
      subst hzero
      rw [Point.add_self_of_Y_eq (by rw [negY_eq, neg_zero])]
      have hJy : J.y = 0 := by simpa using hy
      exact .identity (by simp [Jacobian.double, hJy])
    · rw [Point.add_self_of_Y_ne (ne_negY hzero)]
      -- the slope of the tangent, without the division
      set slope := curve.slope x x y y with hslope
      have htangent : slope * (2 * y) = 3 * x ^ 2 - 3 := by
        rw [hslope, slope_of_Y_ne rfl (ne_negY hzero), negY_eq, sub_neg_eq_add, ← two_mul,
          div_mul_cancel₀ _ (mul_ne_zero two_ne_zero hzero)]
        simp [curve, sub_eq_add_neg]
      have hz₂ : toField J.double.z = 2 * y * toField J.z ^ 4 := by
        simp only [Jacobian.double, toField_mul, toField_ofNat, hy]
        ring
      refine .affine _ ?_ ?_ ?_
      · rw [ne_eq, ← toField_eq_zero_iff, hz₂]
        exact mul_ne_zero (mul_ne_zero two_ne_zero hzero) (pow_ne_zero 4 hz')
      · rw [hz₂, addX_eq]
        simp only [Jacobian.double, toField_mul, toField_sub, toField_ofNat, hx, hy]
        linear_combination (-toField J.z ^ 8 * (slope * (2 * y) + 3 * x ^ 2 - 3)) * htangent
      · rw [hz₂, addY_eq, addX_eq]
        simp only [Jacobian.double, toField_mul, toField_sub, toField_ofNat, hx, hy]
        linear_combination (toField J.z ^ 12 * ((slope * (2 * y)) ^ 2 +
          slope * (2 * y) * (3 * x ^ 2 - 3) + (3 * x ^ 2 - 3) ^ 2 - 12 * x * y ^ 2)) * htangent

/-! ## The chord through two points

Both points are brought over one denominator: `crossX J K` and `crossX K J` are the two `x`
coordinates times the square of the product of the `z`, and `crossY` does the same for `y` with the
cube. -/

/-- The `x` coordinate of a triple over the denominator that it has in common with another one. -/
def crossX (J K : Jacobian) : Residue :=
  J.x * (K.z * K.z)

/-- The `y` coordinate of a triple over the denominator that it has in common with another one. -/
def crossY (J K : Jacobian) : Residue :=
  J.y * (K.z * K.z * K.z)

/-- The sum of two points with different `x`: the coordinates `u` and `v` of the first one, the
differences `h` and `r` to the second one, all over the denominator `z`. -/
def chord (u v h r z : Residue) : Jacobian :=
  let x := r * r - h * h * h - 2 * (u * (h * h))
  ⟨x, r * (u * (h * h) - x) - v * (h * h * h), z * h⟩

/-- The cases of an addition. -/
theorem add_eq (hJ : J.z ≠ 0) (hK : K.z ≠ 0) :
    J.add K =
      if crossX K J - crossX J K = 0 then
        if crossY K J - crossY J K = 0 then J.double else identity
      else chord (crossX J K) (crossY J K) (crossX K J - crossX J K) (crossY K J - crossY J K)
        (J.z * K.z) := by
  rw [Jacobian.add, if_neg hJ, if_neg hK]
  rfl

theorem toField_crossX {x : ZMod fieldPrime} (hx : toField J.x = x * toField J.z ^ 2)
    (K : Jacobian) : toField (crossX J K) = x * (toField J.z * toField K.z) ^ 2 := by
  simp only [crossX, toField_mul, hx]
  ring

theorem toField_crossY {y : ZMod fieldPrime} (hy : toField J.y = y * toField J.z ^ 3)
    (K : Jacobian) : toField (crossY J K) = y * (toField J.z * toField K.z) ^ 3 := by
  simp only [crossY, toField_mul, hy]
  ring

theorem represents_chord {x₁ y₁ x₂ y₂ : ZMod fieldPrime} {u v h r z : Residue}
    (h₁ : curve.Nonsingular x₁ y₁) (h₂ : curve.Nonsingular x₂ y₂) (hne : x₁ ≠ x₂)
    (hz : toField z ≠ 0) (hu : toField u = x₁ * toField z ^ 2)
    (hv : toField v = y₁ * toField z ^ 3) (hh : toField h = (x₂ - x₁) * toField z ^ 2)
    (hr : toField r = (y₂ - y₁) * toField z ^ 3) :
    (chord u v h r z).Represents (.some x₁ y₁ h₁ + .some x₂ y₂ h₂) := by
  rw [Point.add_of_X_ne hne]
  -- the slope of the chord, without the division
  set slope := curve.slope x₁ x₂ y₁ y₂ with hslope
  have hchord : slope * (x₂ - x₁) = y₂ - y₁ := by
    rw [hslope, slope_of_X_ne hne, ← neg_sub y₂, ← neg_sub x₂, neg_div_neg_eq,
      div_mul_cancel₀ _ (sub_ne_zero.2 (Ne.symm hne))]
  have hr' : toField r = slope * (toField z * toField h) := by
    rw [hr, hh, ← hchord]
    ring
  refine .affine _ ?_ ?_ ?_
  · rw [ne_eq, ← toField_eq_zero_iff, chord, toField_mul, hh]
    exact mul_ne_zero hz (mul_ne_zero (sub_ne_zero.2 (Ne.symm hne)) (pow_ne_zero 2 hz))
  · rw [addX_eq]
    simp only [chord, toField_mul, toField_sub, toField_ofNat, hu, hr', hh]
    ring
  · rw [addY_eq, addX_eq]
    simp only [chord, toField_mul, toField_sub, toField_ofNat, hu, hv, hr', hh]
    ring

/-- **Addition.** -/
theorem Represents.add (hJ : J.Represents P) (hK : K.Represents Q) :
    (J.add K).Represents (P + Q) := by
  cases hJ with
  | identity hz => rwa [Jacobian.add, if_pos hz, zero_add]
  | @affine x₁ y₁ h₁ hz₁ hx₁ hy₁ =>
  cases hK with
  | identity hz =>
    rw [Jacobian.add, if_neg hz₁, if_pos hz, add_zero]
    exact .affine h₁ hz₁ hx₁ hy₁
  | @affine x₂ y₂ h₂ hz₂ hx₂ hy₂ =>
  have hz : toField (J.z * K.z) ≠ 0 := by simp [hz₁, hz₂]
  have hu := toField_crossX hx₁ K
  have hv := toField_crossY hy₁ K
  have hh : toField (crossX K J - crossX J K) = (x₂ - x₁) * toField (J.z * K.z) ^ 2 := by
    rw [toField_sub, toField_crossX hx₂, hu, toField_mul]
    ring
  have hr : toField (crossY K J - crossY J K) = (y₂ - y₁) * toField (J.z * K.z) ^ 3 := by
    rw [toField_sub, toField_crossY hy₂, hv, toField_mul]
    ring
  have hx_iff : crossX K J - crossX J K = 0 ↔ x₁ = x₂ := by
    rw [← toField_eq_zero_iff, hh, mul_eq_zero, or_iff_left (pow_ne_zero 2 hz), sub_eq_zero,
      eq_comm]
  have hy_iff : crossY K J - crossY J K = 0 ↔ y₁ = y₂ := by
    rw [← toField_eq_zero_iff, hr, mul_eq_zero, or_iff_left (pow_ne_zero 3 hz), sub_eq_zero,
      eq_comm]
  rw [add_eq hz₁ hz₂]
  by_cases hx : x₁ = x₂
  · rw [if_pos (hx_iff.2 hx)]
    by_cases hy : y₁ = y₂
    · -- one point twice
      subst hx hy
      rw [if_pos (hy_iff.2 rfl)]
      exact Represents.double (.affine h₁ hz₁ hx₁ hy₁)
    · -- opposite points
      rw [if_neg (mt hy_iff.1 hy),
        Point.add_of_Y_eq hx ((Y_eq_of_X_eq h₁.1 h₂.1 hx).resolve_left hy)]
      exact .identity rfl
  · rw [if_neg (mt hx_iff.1 hx)]
    rw [← toField_mul] at hu hv
    exact represents_chord h₁ h₂ hx hz hu hv hh hr

/-! ## Multiples -/

/-- **Multiples.** -/
theorem Represents.scale (h : J.Represents P) (bits k : ℕ) (hk : k < 2 ^ bits) :
    (Jacobian.scale bits k J).Represents (k • P) := by
  induction bits generalizing k with
  | zero =>
    obtain rfl : k = 0 := by simpa using hk
    rw [zero_nsmul]
    exact .identity rfl
  | succ bits ih =>
    have hhalf := (ih (k / 2) (by rw [pow_succ] at hk; omega)).double
    rw [← two_nsmul, ← mul_nsmul] at hhalf
    rw [Jacobian.scale]
    by_cases hodd : k % 2 = 1
    · have hsum := hhalf.add h
      rw [← succ_nsmul] at hsum
      have heq : k / 2 * 2 + 1 = k := by omega
      rw [if_pos hodd]
      rwa [heq] at hsum
    · have heq : k / 2 * 2 = k := by omega
      rw [if_neg hodd]
      rwa [heq] at hhalf

/-- The test of the group order says whether the group order annihilates the point. -/
theorem Represents.hasGroupOrder_iff (h : J.Represents P) :
    J.hasGroupOrder = true ↔ groupOrder • P = 0 := by
  have hmultiple := (h.scale 256 (groupOrder - 1) (by decide)).add h
  rw [← succ_nsmul] at hmultiple
  exact hmultiple.isIdentity_iff

end Jacobian

end Curve

end SealedChannel
