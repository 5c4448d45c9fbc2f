import SealedChannel.Curve.PublicPoint

/-!
# Key pairs

A user publishes two independent points: one that other members encrypt for, and one that they
verify signatures with.

## What is here

* `KeyPair` — the two byte strings as they were received, not yet checked.
* `KeyError` — the reason a pair is refused, with its text in `KeyError.message`.
* `KeyPair.check` — both points are checked, the encryption key first, and one point may not serve
  in both roles.
-/

set_option autoImplicit false
namespace SealedChannel

open Curve

/-- A user's encryption key and signing key, as received. -/
structure KeyPair where
  encr : Bytes
  sign : Bytes
  deriving DecidableEq, Repr

/-- The reason a key pair is refused. -/
inductive KeyError where
  /-- The encryption key is not a public point. -/
  | encr (cause : PointError)
  /-- The signing key is not a public point. -/
  | sign (cause : PointError)
  /-- One point is used in both roles. -/
  | reused
  deriving DecidableEq, Repr

/-- The text of a refusal. -/
def KeyError.message : KeyError → String
  | .encr cause => "invalid encryption key: " ++ cause.message
  | .sign cause => "invalid signing key: " ++ cause.message
  | .reused => "encryption and signing keys must differ"

namespace KeyPair

/-- The two points of a pair, or the first reason to refuse it. -/
def check (pair : KeyPair) : Except KeyError (PublicPoint × PublicPoint) :=
  match PublicPoint.check pair.encr with
  | .error cause => .error (.encr cause)
  | .ok encr =>
    match PublicPoint.check pair.sign with
    | .error cause => .error (.sign cause)
    | .ok sign => if encr.same sign then .error .reused else .ok (encr, sign)

/-- Whether a pair passes the check. -/
def isValid (pair : KeyPair) : Bool :=
  pair.check.isOk

end KeyPair

end SealedChannel
