import SealedChannel.Curve.Field

/-!
# The group law in Jacobian coordinates

Multiplying a point by a 256-bit number takes hundreds of doublings and additions.  In Jacobian
coordinates none of them divides: the triple `(x, y, z)` with `z ≠ 0` stands for the affine point
`(x / z ^ 2, y / z ^ 3)`, and every triple with `z = 0` for the identity.

## What is here

* `Jacobian` — the triples, with `identity`, `ofAffine` and the test `isIdentity`.
* `Jacobian.double` and `Jacobian.add` — the group law; `add` falls back on `double` for two
  triples of one point and meets the identity where the points are opposite.
* `Jacobian.scale` — the multiple `[k]P` by doubling, one bit of `k` for each step.
* `Jacobian.hasGroupOrder` — whether `[N]P` is the identity, computed as `[N - 1]P + P`.
-/

set_option autoImplicit false
namespace SealedChannel
namespace Curve

/-! ## Triples -/

/-- A point in Jacobian coordinates. -/
structure Jacobian where
  x : Residue
  y : Residue
  z : Residue
  deriving DecidableEq, Repr

namespace Jacobian

/-- A triple for the identity. -/
def identity : Jacobian :=
  ⟨1, 1, 0⟩

/-- The triple of an affine point. -/
def ofAffine (x y : Residue) : Jacobian :=
  ⟨x, y, 1⟩

/-- Whether a triple stands for the identity. -/
def isIdentity (P : Jacobian) : Bool :=
  P.z == 0

/-! ## The group law -/

/-- Twice a point.  A triple with `y = 0` or `z = 0` doubles to the identity. -/
def double (P : Jacobian) : Jacobian :=
  let yy := P.y * P.y
  let zz := P.z * P.z
  let s := 4 * (P.x * yy)
  let m := 3 * (P.x * P.x) - 3 * (zz * zz)
  let x := m * m - 2 * s
  ⟨x, m * (s - x) - 8 * (yy * yy), 2 * (P.y * P.z)⟩

/-- The sum of two points. -/
def add (P Q : Jacobian) : Jacobian :=
  if P.z = 0 then Q
  else if Q.z = 0 then P
  else
    let zzP := P.z * P.z
    let zzQ := Q.z * Q.z
    let u := P.x * zzQ
    let v := P.y * (zzQ * Q.z)
    let h := Q.x * zzP - u
    let r := Q.y * (zzP * P.z) - v
    if h = 0 then if r = 0 then double P else identity
    else
      let hh := h * h
      let hhh := hh * h
      let w := u * hh
      let x := r * r - hhh - 2 * w
      ⟨x, r * (w - x) - v * hhh, P.z * Q.z * h⟩

/-! ## Multiples -/

/-- The multiple `[k]P` for a number `k` of at most `bits` bits: twice the multiple by `k / 2`, and
`P` once more where `k` is odd. -/
def scale : Nat → Nat → Jacobian → Jacobian
  | 0, _, _ => identity
  | bits + 1, k, P =>
    let half := double (scale bits (k / 2) P)
    if k % 2 = 1 then add half P else half

/-- Whether `[N]P` is the identity, for the group order `N`.  The multiple is split as
`[N - 1]P + P`, so that the last step is an addition of two points that must be opposite. -/
def hasGroupOrder (P : Jacobian) : Bool :=
  (add (scale 256 (groupOrder - 1) P) P).isIdentity

end Jacobian

end Curve

end SealedChannel
