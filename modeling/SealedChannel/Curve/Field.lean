import SealedChannel.Bytes

/-!
# The field and the curve P-256

Users publish points of the NIST curve P-256, `y ^ 2 = x ^ 3 - 3 x + b` over the integers modulo a
prime.  This file fixes the numbers and the equation.

## What is here

* `fieldPrime`, `groupOrder`, `curveB` — the constants of the curve; `generatorX`, `generatorY` its
  base point.
* `Residue` — the integers modulo `fieldPrime`.
* `OnCurve` — the affine curve equation, decidable by computing both sides.
-/

set_option autoImplicit false
namespace SealedChannel
namespace Curve

/-! ## Constants -/

/-- The prime `2 ^ 256 - 2 ^ 224 + 2 ^ 192 + 2 ^ 96 - 1` of the coordinate field. -/
def fieldPrime : Nat :=
  0xffffffff00000001000000000000000000000000ffffffffffffffffffffffff

/-- The number of points of the curve, the identity included; it is prime. -/
def groupOrder : Nat :=
  0xffffffff00000000ffffffffffffffffbce6faada7179e84f3b9cac2fc632551

/-- The constant term of the curve equation. -/
def curveB : Nat :=
  0x5ac635d8aa3a93e7b3ebbd55769886bc651d06b0cc53b0f63bce3c3e27d2604b

/-- The `x` coordinate of the base point. -/
def generatorX : Nat :=
  0x6b17d1f2e12c4247f8bce6e563a440f277037d812deb33a0f4a13945d898c296

/-- The `y` coordinate of the base point. -/
def generatorY : Nat :=
  0x4fe342e2fe1a7f9b8ee7eb4a7c0f9e162bce33576b315ececbb6406837bf51f5

instance : @NeZero Nat Zero.ofOfNat0 fieldPrime :=
  ⟨by decide⟩

/-- The order is below the field prime, so a coordinate below the order is a reduced residue. -/
theorem groupOrder_lt_fieldPrime : groupOrder < fieldPrime := by
  decide

/-! ## Residues and the curve equation -/

/-- An integer modulo the field prime. -/
abbrev Residue := Fin fieldPrime

/-- The residue class of a number. -/
def residue (n : Nat) : Residue :=
  Fin.ofNat fieldPrime n

/-- The affine curve equation `y ^ 2 = x ^ 3 - 3 x + b`. -/
def OnCurve (x y : Residue) : Prop :=
  y * y = x * x * x - 3 * x + residue curveB

instance (x y : Residue) : Decidable (OnCurve x y) :=
  inferInstanceAs (Decidable (_ = _))

/-- The base point lies on the curve. -/
theorem onCurve_generator : OnCurve (residue generatorX) (residue generatorY) := by
  decide +kernel

end Curve

end SealedChannel
