import SealedChannel.Proofs.Curve.PublicPoint

/-!
# Which key pairs are valid

Two keys are checked one after the other and then compared, coordinate by coordinate.  A point is
accepted in one encoding alone, so the comparison is one of the byte strings, and nothing but the
order of the two keys decides which of two reasons against a pair is told.

## What is here

* `KeyPair.Deserves` — the verdict that the rules give on a pair.
* `KeyPair.deserves_check` — the check comes to it.
* `KeyPair.isValid_eq_true_iff` — a valid pair encodes two different points of the curve.
* `KeyPair.check_decides` — every verdict, and what follows for the comparison of points.
-/

set_option autoImplicit false
namespace SealedChannel

open Curve

namespace KeyPair

/-! ## Verdicts -/

/-- The verdict that the rules give on a pair: the points of its two keys if both are accepted and
the keys differ, else the first reason against it.  A refused encryption key comes before a refused
signing key, and both before a key that serves in both roles. -/
def Deserves (pair : KeyPair) : Except KeyError (PublicPoint × PublicPoint) → Prop
  | .ok (P, Q) => PublicPoint.check pair.encr = .ok P ∧ PublicPoint.check pair.sign = .ok Q ∧
      pair.encr ≠ pair.sign
  | .error .reused => (∃ P, PublicPoint.check pair.encr = .ok P) ∧
      (∃ Q, PublicPoint.check pair.sign = .ok Q) ∧ pair.encr = pair.sign
  | .error (.encr cause) => PublicPoint.check pair.encr = .error cause
  | .error (.sign cause) => (∃ P, PublicPoint.check pair.encr = .ok P) ∧
      PublicPoint.check pair.sign = .error cause

/-- Accepted keys are the same point if and only if they are the same bytes. -/
theorem same_iff_of_check {encr sign : Bytes} {P Q : PublicPoint}
    (hP : PublicPoint.check encr = .ok P) (hQ : PublicPoint.check sign = .ok Q) :
    P.same Q = true ↔ encr = sign := by
  rw [PublicPoint.same_iff, PublicPoint.encode_of_check hP, PublicPoint.encode_of_check hQ]

/-- The check comes to the verdict that a pair deserves. -/
theorem deserves_check (pair : KeyPair) : pair.Deserves pair.check := by
  rw [check]
  cases hencr : PublicPoint.check pair.encr with
  | error cause => exact hencr
  | ok P =>
    cases hsign : PublicPoint.check pair.sign with
    | error cause => exact ⟨⟨P, hencr⟩, hsign⟩
    | ok Q =>
      have hsame := same_iff_of_check hencr hsign
      dsimp only
      split
      · rename_i hequal
        exact ⟨⟨P, hencr⟩, ⟨Q, hsign⟩, hsame.1 hequal⟩
      · rename_i hdiffer
        exact ⟨hencr, hsign, fun h => hdiffer (hsame.2 h)⟩

/-- No pair deserves two verdicts. -/
theorem Deserves.unique {pair : KeyPair} {verdict verdict' : Except KeyError _}
    (h : pair.Deserves verdict) (h' : pair.Deserves verdict') : verdict = verdict' := by
  rcases verdict with (cause | cause | _) | ⟨P, Q⟩ <;>
    rcases verdict' with (cause' | cause' | _) | ⟨P', Q'⟩ <;>
    simp_all [Deserves]

/-- The check tells a verdict if and only if the pair deserves it. -/
theorem check_eq_iff {pair : KeyPair} {verdict : Except KeyError (PublicPoint × PublicPoint)} :
    pair.check = verdict ↔ pair.Deserves verdict := by
  refine ⟨?_, pair.deserves_check.unique⟩
  rintro rfl
  exact pair.deserves_check

/-! ## Valid pairs -/

/-- A pair is valid if and only if it encodes two points, in the sense of the curve, and not one. -/
theorem isValid_eq_true_iff {pair : KeyPair} :
    pair.isValid = true ↔ EncodesPoint pair.encr ∧ EncodesPoint pair.sign ∧
      pair.encr ≠ pair.sign := by
  constructor
  · intro h
    rw [isValid] at h
    cases hcheck : pair.check with
    | error cause => rw [hcheck] at h; cases h
    | ok points =>
      obtain ⟨hencr, hsign, hdiffer⟩ := check_eq_ok_iff.1 hcheck
      exact ⟨PublicPoint.encodesPoint_of_check hencr, PublicPoint.encodesPoint_of_check hsign,
        hdiffer⟩
  · rintro ⟨hencr, hsign, hdiffer⟩
    obtain ⟨P, hP⟩ := PublicPoint.exists_check_eq_ok hencr
    obtain ⟨Q, hQ⟩ := PublicPoint.exists_check_eq_ok hsign
    rw [isValid, check_eq_ok_iff.2 ⟨hP, hQ, hdiffer⟩]
    rfl

/-- The two roles of a valid pair may be exchanged. -/
theorem isValid_swap (encr sign : Bytes) : isValid ⟨encr, sign⟩ = isValid ⟨sign, encr⟩ := by
  rw [Bool.eq_iff_iff, isValid_eq_true_iff, isValid_eq_true_iff]
  constructor
  · rintro ⟨hencr, hsign, hdiffer⟩
    exact ⟨hsign, hencr, hdiffer.symm⟩
  · rintro ⟨hsign, hencr, hdiffer⟩
    exact ⟨hencr, hsign, hdiffer.symm⟩

/-- **The check of a pair.**  For all byte strings it tells the verdict that they deserve, and the
points that it finds are the ones that they encode.  Points are compared by their encodings: those
of two accepted byte strings are the same if and only if the byte strings are, so no key serves in
both roles in disguise.  A pair is valid if and only if it encodes two different points of the
curve, in whichever order. -/
theorem check_decides (encr sign : Bytes) :
    (∀ verdict, check ⟨encr, sign⟩ = verdict ↔ Deserves ⟨encr, sign⟩ verdict) ∧
    (∀ P Q, check ⟨encr, sign⟩ = .ok (P, Q) → P.encode = encr ∧ Q.encode = sign) ∧
    (∀ P Q, PublicPoint.check encr = .ok P → PublicPoint.check sign = .ok Q →
      (P.same Q = true ↔ encr = sign)) ∧
    (∀ P Q : PublicPoint, P.same Q = true ↔ P.encode = Q.encode) ∧
    (isValid ⟨encr, sign⟩ = true ↔ EncodesPoint encr ∧ EncodesPoint sign ∧ encr ≠ sign) ∧
    isValid ⟨encr, sign⟩ = isValid ⟨sign, encr⟩ := by
  refine ⟨fun _ => check_eq_iff, fun P Q h => ?_, fun P Q => same_iff_of_check,
    PublicPoint.same_iff, isValid_eq_true_iff, isValid_swap encr sign⟩
  obtain ⟨hencr, hsign, -⟩ := check_eq_ok_iff.1 h
  exact ⟨PublicPoint.encode_of_check hencr, PublicPoint.encode_of_check hsign⟩

/-- The base point and its opposite are a pair, in both orders; the base point alone is none. -/
theorem check_decides_of_oppositeBytes :
    (∃ P Q, check ⟨PublicPoint.generatorBytes, PublicPoint.oppositeBytes⟩ = .ok (P, Q) ∧
      P.encode = PublicPoint.generatorBytes ∧ Q.encode = PublicPoint.oppositeBytes ∧ P.same Q = false) ∧
    isValid ⟨PublicPoint.oppositeBytes, PublicPoint.generatorBytes⟩ = true ∧
    check ⟨PublicPoint.generatorBytes, PublicPoint.generatorBytes⟩ = .error .reused := by
  obtain ⟨P, hP⟩ := PublicPoint.exists_check_eq_ok PublicPoint.encodesPoint_generatorBytes
  obtain ⟨Q, hQ⟩ := PublicPoint.exists_check_eq_ok PublicPoint.encodesPoint_oppositeBytes
  have hdiffer : PublicPoint.generatorBytes ≠ PublicPoint.oppositeBytes := by decide +kernel
  obtain ⟨hverdict, hencode, hsame, -, hvalid, hswap⟩ :=
    check_decides PublicPoint.generatorBytes PublicPoint.oppositeBytes
  have hcheck := (hverdict (.ok (P, Q))).2 ⟨hP, hQ, hdiffer⟩
  obtain ⟨hP', hQ'⟩ := hencode P Q hcheck
  refine ⟨⟨P, Q, hcheck, hP', hQ', ?_⟩, ?_, ?_⟩
  · exact Bool.eq_false_iff.2 fun h => hdiffer ((hsame P Q hP hQ).1 h)
  · rw [← hswap]
    exact hvalid.2 ⟨PublicPoint.encodesPoint_generatorBytes, PublicPoint.encodesPoint_oppositeBytes, hdiffer⟩
  · exact ((check_decides PublicPoint.generatorBytes PublicPoint.generatorBytes).1 _).2
      ⟨⟨P, hP⟩, ⟨P, hP⟩, rfl⟩

end KeyPair

end SealedChannel
