import Mathlib.FieldTheory.Finite.Basic
import Mathlib.GroupTheory.OrderOfElement
import Mathlib.GroupTheory.Perm.Cycle.Type
import SealedChannel.Proofs.Curve.GroupLaw

/-!
# The order of the curve

The curve has exactly `groupOrder` points.  Counting them needs neither Hasse's bound nor a
point-counting algorithm:

* the base point has order `groupOrder`, a prime, so the number of points is a multiple of it;
* there are at most two points for each `x` coordinate, so the multiple is at most the double;
* if it were the double, there would be a point of order two, whose `x` coordinate is a root of the
  cubic `x ^ 3 - 3 x + b`; but the cubic has none.

## What is here

* `CubicClass` — polynomials modulo the cubic, in which the last fact is computed.
* `add_self_ne_zero` — no point has order two.
* `card_point` — the number of points.
* `groupOrder_nsmul` — the group order annihilates every point.
-/

set_option autoImplicit false
namespace SealedChannel
namespace Curve

open WeierstrassCurve.Affine Residue

/-! ## Polynomials modulo the cubic -/

/-- The polynomial `a + b x + c x ^ 2` modulo the cubic of the curve. -/
structure CubicClass where
  a : Residue
  b : Residue
  c : Residue
  deriving DecidableEq

namespace CubicClass

/-- The product, reduced by `x ^ 3 = 3 x - curveB`. -/
def mul (s t : CubicClass) : CubicClass :=
  let x₃ := s.b * t.c + s.c * t.b
  let x₄ := s.c * t.c
  ⟨s.a * t.a - residue curveB * x₃,
    s.a * t.b + s.b * t.a + 3 * x₃ - residue curveB * x₄,
    s.a * t.c + s.b * t.b + s.c * t.a + 3 * x₄⟩

/-- The class of `1`. -/
def one : CubicClass :=
  ⟨1, 0, 0⟩

/-- The class of `x`. -/
def x : CubicClass :=
  ⟨0, 1, 0⟩

/-- The class of `x ^ p - x`, for the field prime `p`. -/
def frobeniusSub : CubicClass :=
  let t := power mul one 256 x fieldPrime
  ⟨t.a, t.b - 1, t.c⟩

/-- The inverse of `frobeniusSub`. -/
def inverse : CubicClass :=
  ⟨residue 0xa969487079f1744798bf0de6fded091b66e9d328eb0645fe5d979d1339b7f47f,
    residue 0xa4a08891884100c13323460107a8d28eede4387fa3e6e9bfebec9f6d72d0b5cc,
    residue 0x4cde11cf86cb876cd59cf0115813c55af0ecd3cda667d98bb9a347a56aa74a6d⟩

theorem mul_inverse : mul frobeniusSub inverse = one := by
  decide +kernel

/-- The value of a polynomial at a point. -/
def eval (r : ZMod fieldPrime) (t : CubicClass) : ZMod fieldPrime :=
  toField t.a + toField t.b * r + toField t.c * r ^ 2

variable {r : ZMod fieldPrime}

@[simp]
theorem eval_one : eval r one = 1 := by
  simp [eval, one]

@[simp]
theorem eval_x : eval r x = r := by
  simp [eval, x]

/-- At a root of the cubic, the value of a product is the product of the values. -/
theorem eval_mul (hr : r ^ 3 - 3 * r + curveB = 0) (s t : CubicClass) :
    eval r (mul s t) = eval r s * eval r t := by
  simp only [eval, mul, toField_add, toField_sub, toField_mul, toField_ofNat, toField_residue]
  linear_combination (-(toField s.b * toField t.c + toField s.c * toField t.b +
    toField s.c * toField t.c * r)) * hr

/-- Every element of the field is a root of `x ^ p - x`. -/
theorem eval_frobeniusSub (hr : r ^ 3 - 3 * r + curveB = 0) : eval r frobeniusSub = 0 := by
  have hpower := map_power (eval r) (eval_mul hr) eval_one x 256 fieldPrime (by decide)
  rw [eval_x, ZMod.pow_card] at hpower
  rw [eval] at hpower
  simp only [eval, frobeniusSub, toField_sub, toField_one]
  linear_combination hpower

end CubicClass

/-- **The cubic of the curve has no root**: it has no common factor with `x ^ p - x`. -/
theorem cubic_ne_zero (r : ZMod fieldPrime) : r ^ 3 - 3 * r + curveB ≠ 0 := by
  intro hr
  have hone := CubicClass.eval_mul hr .frobeniusSub .inverse
  rw [CubicClass.mul_inverse, CubicClass.eval_one, CubicClass.eval_frobeniusSub hr, zero_mul]
    at hone
  exact one_ne_zero hone

/-- **No point has order two.** -/
theorem add_self_ne_zero {P : curve.Point} (hP : P ≠ 0) : P + P ≠ 0 := by
  cases P with
  | zero => exact absurd rfl hP
  | some x y hxy =>
    have hy : y ≠ 0 := by
      rintro rfl
      have hcubic := (equation_iff x 0).1 hxy.1
      exact cubic_ne_zero x (by linear_combination -hcubic)
    rw [Point.add_self_of_Y_ne (ne_negY hy)]
    exact Point.some_ne_zero _

/-! ## The base point -/

/-- The base point. -/
def generator : curve.Point :=
  .some _ _ (nonsingular_of_onCurve onCurve_generator)

/-- The group order annihilates the base point: its test of the group order is computed. -/
theorem groupOrder_nsmul_generator : groupOrder • generator = 0 := by
  refine (Jacobian.represents_ofAffine onCurve_generator).hasGroupOrder_iff.1 ?_
  decide +kernel

theorem addOrderOf_generator : addOrderOf generator = groupOrder := by
  have : Fact groupOrder.Prime := ⟨prime_groupOrder⟩
  exact addOrderOf_eq_prime groupOrder_nsmul_generator (Point.some_ne_zero _)

/-! ## Counting -/

/-- The `x` coordinate of a point; the identity has none. -/
def abscissa? : curve.Point → Option (ZMod fieldPrime)
  | .zero => none
  | .some x _ _ => some x

/-- At most two points share an `x` coordinate. -/
theorem eq_or_eq_neg_of_abscissa? {P Q : curve.Point} (h : abscissa? P = abscissa? Q) :
    P = Q ∨ P = -Q := by
  cases P with
  | zero =>
    cases Q with
    | zero => exact .inl rfl
    | some => cases h
  | some x₁ y₁ h₁ =>
    cases Q with
    | zero => cases h
    | some x₂ y₂ h₂ => exact Point.X_eq_iff.1 (Option.some.inj h)

instance : Finite curve.Point :=
  have : Finite (WithZero {xy : ZMod fieldPrime × ZMod fieldPrime // curve.Nonsingular xy.1 xy.2}) :=
    inferInstanceAs (Finite (Option _))
  .of_equiv _ (nonsingularPointEquiv curve).symm

theorem card_point_le : Nat.card curve.Point ≤ 2 * (fieldPrime + 1) := by
  classical
  have := Fintype.ofFinite curve.Point
  rw [Nat.card_eq_fintype_card, ← Finset.card_univ]
  calc (Finset.univ : Finset curve.Point).card
      ≤ 2 * (Finset.univ.image abscissa?).card := by
        refine Finset.card_le_mul_card_image _ 2 fun x hx => ?_
        obtain ⟨P, -, rfl⟩ := Finset.mem_image.1 hx
        refine (Finset.card_le_card (t := {P, -P}) fun Q hQ => ?_).trans Finset.card_le_two
        have hPQ := (Finset.mem_filter.1 hQ).2
        simpa using eq_or_eq_neg_of_abscissa? hPQ
    _ ≤ 2 * Fintype.card (Option (ZMod fieldPrime)) :=
        Nat.mul_le_mul_left 2 (Finset.card_le_univ _)
    _ = 2 * (fieldPrime + 1) := by rw [Fintype.card_option, ZMod.card]

/-- **The number of points of the curve.** -/
theorem card_point : Nat.card curve.Point = groupOrder := by
  obtain ⟨k, hk⟩ := addOrderOf_generator ▸ addOrderOf_dvd_natCard generator
  have hle := card_point_le
  have hpos : 0 < Nat.card curve.Point := Nat.card_pos
  rw [hk] at hle hpos ⊢
  have hk₀ : k ≠ 0 := by
    rintro rfl
    exact absurd hpos (by simp)
  have hk₃ : k < 3 := by
    refine lt_of_not_ge fun h => absurd (le_trans (Nat.mul_le_mul_left groupOrder h) hle) ?_
    decide
  have hk₂ : k ≠ 2 := by
    -- else there were a point of order two
    rintro rfl
    obtain ⟨P, hP⟩ := exists_prime_addOrderOf_dvd_card' 2 (Dvd.intro_left groupOrder hk.symm)
    have hne : P ≠ 0 := by
      rintro rfl
      simp at hP
    refine add_self_ne_zero hne ?_
    rw [← two_nsmul, ← hP, addOrderOf_nsmul_eq_zero]
  obtain rfl : k = 1 := by omega
  rw [mul_one]

/-- **The group order annihilates every point.** -/
theorem groupOrder_nsmul (P : curve.Point) : groupOrder • P = 0 := by
  rw [← card_point, card_nsmul_eq_zero']

end Curve

end SealedChannel
