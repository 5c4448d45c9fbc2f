import SealedChannel.Curve.Jacobian

/-!
# Checked public points

Public keys arrive as uncompressed points: the tag `0x04`, then the two coordinates of 32 bytes
each.  A point off the curve, or of small order, could be used to learn bits of another member's
secret key, so no byte string becomes a `PublicPoint` before it has passed every check.

## What is here

* `Coordinate` — 32 bytes, read as a number by `Coordinate.toNat`.
* `PointError` — the reason a byte string is refused, with its text in `PointError.message`.
* `Admissible` — what the coordinates of a public point satisfy: both lie strictly between zero and
  the group order, and they solve the curve equation.
* `PublicPoint` — an admissible pair of coordinates, with `PublicPoint.encode` and the comparison
  `PublicPoint.same`.
* `PublicPoint.check` — the checks in their order: length, tag, zero coordinate, coordinate not
  below the group order, curve equation, group order of the point.
-/

set_option autoImplicit false
namespace SealedChannel
namespace Curve

/-! ## Coordinates -/

/-- The number of bytes of one coordinate. -/
def coordinateLength : Nat := 32

/-- The number of bytes of an uncompressed point. -/
def encodingLength : Nat := 2 * coordinateLength + 1

/-- The tag of the uncompressed encoding; compressed and hybrid encodings are refused. -/
def uncompressedTag : UInt8 := 0x04

/-- The bytes of one coordinate, most significant first. -/
structure Coordinate where
  bytes : Bytes
  length_eq : bytes.length = coordinateLength
  deriving DecidableEq

namespace Coordinate

/-- The number a coordinate writes. -/
def toNat (c : Coordinate) : Nat :=
  c.bytes.toNat

/-- The residue a coordinate stands for. -/
def toResidue (c : Coordinate) : Residue :=
  residue c.toNat

/-- The first coordinate of an uncompressed point. -/
def first (data : Bytes) (h : data.length = encodingLength) : Coordinate where
  bytes := (data.drop 1).take coordinateLength
  length_eq := by simp [h, encodingLength, coordinateLength]

/-- The second coordinate of an uncompressed point. -/
def second (data : Bytes) (h : data.length = encodingLength) : Coordinate where
  bytes := data.drop (1 + coordinateLength)
  length_eq := by simp [h, encodingLength, coordinateLength]

end Coordinate

/-- The uncompressed encoding of two coordinates. -/
def encodeUncompressed (x y : Coordinate) : Bytes :=
  uncompressedTag :: (x.bytes ++ y.bytes)

/-! ## Reasons to refuse -/

/-- The reason a byte string is not a public point. -/
inductive PointError where
  /-- The byte string is not `expected` bytes long. -/
  | invalidLength (expected got : Nat)
  /-- The first byte is not the tag of the uncompressed encoding. -/
  | unsupportedEncoding (tag : UInt8)
  /-- A coordinate is zero. -/
  | zeroCoordinate
  /-- A coordinate is not below the group order. -/
  | nonCanonicalCoordinate
  /-- The coordinates do not solve the curve equation. -/
  | notOnCurve
  /-- The point is not annihilated by the group order. -/
  | wrongSubgroup
  deriving DecidableEq, Repr

/-- The text of a refusal. -/
def PointError.message : PointError → String
  | .invalidLength expected got => s!"invalid point length: expected {expected}, got {got}"
  | .unsupportedEncoding tag => "unsupported point encoding tag 0x" ++ Bytes.hex [tag]
  | .zeroCoordinate => "point has a zero coordinate"
  | .nonCanonicalCoordinate => "point coordinate is not below the group order"
  | .notOnCurve => "point is not on the curve"
  | .wrongSubgroup => "point is not in the prime-order subgroup"

/-! ## Public points -/

/-- What the coordinates of a public point satisfy. -/
structure Admissible (x y : Coordinate) : Prop where
  x_ne_zero : x.toNat ≠ 0
  y_ne_zero : y.toNat ≠ 0
  x_lt : x.toNat < groupOrder
  y_lt : y.toNat < groupOrder
  onCurve : OnCurve x.toResidue y.toResidue

/-- A point of the curve that other members may use in a key agreement. -/
structure PublicPoint where
  x : Coordinate
  y : Coordinate
  admissible : Admissible x y

namespace PublicPoint

/-- The uncompressed encoding of a point. -/
def encode (P : PublicPoint) : Bytes :=
  encodeUncompressed P.x P.y

/-- Whether two points have the same coordinates; both coordinates are compared in full. -/
def same (P Q : PublicPoint) : Bool :=
  Bytes.same P.x.bytes Q.x.bytes && Bytes.same P.y.bytes Q.y.bytes

/-- The point that a byte string encodes, or the first check that refuses it. -/
def check (data : Bytes) : Except PointError PublicPoint :=
  if hlen : data.length = encodingLength then
    let tag := data.headD 0
    let x := Coordinate.first data hlen
    let y := Coordinate.second data hlen
    if tag ≠ uncompressedTag then .error (.unsupportedEncoding tag)
    else if hzero : x.toNat = 0 ∨ y.toNat = 0 then .error .zeroCoordinate
    else if hbound : groupOrder ≤ x.toNat ∨ groupOrder ≤ y.toNat then
      .error .nonCanonicalCoordinate
    else if hcurve : OnCurve x.toResidue y.toResidue then
      if (Jacobian.ofAffine x.toResidue y.toResidue).hasGroupOrder then
        .ok ⟨x, y, fun h => hzero (.inl h), fun h => hzero (.inr h),
          Nat.lt_of_not_le fun h => hbound (.inl h),
          Nat.lt_of_not_le fun h => hbound (.inr h), hcurve⟩
      else .error .wrongSubgroup
    else .error .notOnCurve
  else .error (.invalidLength encodingLength data.length)

/-- The point that a byte string encodes, if it passes every check. -/
def ofBytes? (data : Bytes) : Option PublicPoint :=
  (check data).toOption

end PublicPoint

end Curve

end SealedChannel
