/-!
# Byte strings

Keys, stored values and HTTP bodies are byte strings: lists of bytes, first byte first.

## What is here

* `Bytes` — the type.
* `Bytes.toNat` — the number that a byte string writes in base 256, most significant byte first.
* `Bytes.ofText` — the UTF-8 form of a text.
* `Bytes.same` — equality that looks at every byte before it answers, and `Bytes.same_iff`, which
  says that it is equality.
* `Bytes.hex` — two lower-case hexadecimal digits per byte.
-/

set_option autoImplicit false
namespace SealedChannel

/-- A byte string, first byte first. -/
abbrev Bytes := List UInt8

namespace Bytes

/-! ## Numbers and text -/

/-- The number that a byte string writes in base 256, most significant byte first. -/
def toNat (bs : Bytes) : Nat :=
  bs.foldl (fun n b => 256 * n + b.toNat) 0

/-- The UTF-8 form of a list of characters. -/
def ofChars (cs : List Char) : Bytes :=
  cs.flatMap String.utf8EncodeChar

/-- The UTF-8 form of a text. -/
def ofText (s : String) : Bytes :=
  ofChars s.toList

/-- One lower-case hexadecimal digit. -/
def hexDigit (n : Nat) : Char :=
  if n < 10 then Char.ofNat (48 + n) else Char.ofNat (87 + n)

/-- A byte as two lower-case hexadecimal digits. -/
def hexOfByte (b : UInt8) : List Char :=
  [hexDigit (b.toNat / 16), hexDigit (b.toNat % 16)]

/-- A byte string as hexadecimal text. -/
def hex (bs : Bytes) : String :=
  String.ofList (bs.flatMap hexOfByte)

/-! ## Equality in constant time -/

/-- Every bit in which two byte strings differ, gathered into one byte. -/
def difference (a b : Bytes) : UInt8 :=
  (List.zipWith (· ^^^ ·) a b).foldl (· ||| ·) 0

/-- Equality of byte strings that never stops at the first difference. -/
def same (a b : Bytes) : Bool :=
  a.length == b.length && difference a b == 0

theorem or_eq_zero_iff (a b : UInt8) : a ||| b = 0 ↔ a = 0 ∧ b = 0 := by
  simp only [← UInt8.toBitVec_inj, UInt8.toBitVec_or, UInt8.toBitVec_zero, BitVec.or_eq_zero_iff]

theorem xor_eq_zero_iff (a b : UInt8) : a ^^^ b = 0 ↔ a = b := by
  simp only [← UInt8.toBitVec_inj, UInt8.toBitVec_xor, UInt8.toBitVec_zero,
    BitVec.xor_eq_zero_iff]

theorem foldl_or_eq_zero_iff (l : Bytes) (acc : UInt8) :
    l.foldl (· ||| ·) acc = 0 ↔ acc = 0 ∧ ∀ b ∈ l, b = 0 := by
  induction l generalizing acc with
  | nil => simp
  | cons b l ih => simp [ih, and_assoc]

/-- **Comparing in constant time is comparing.** -/
theorem same_iff (a b : Bytes) : same a b = true ↔ a = b := by
  simp only [same, difference, Bool.and_eq_true, beq_iff_eq, foldl_or_eq_zero_iff, true_and]
  induction a generalizing b with
  | nil => cases b <;> simp
  | cons x a ih =>
    cases b with
    | nil => simp
    | cons y b =>
      have := ih b
      simp only [List.length_cons, Nat.add_right_cancel_iff, List.zipWith_cons_cons,
        List.mem_cons, forall_eq_or_imp, xor_eq_zero_iff, List.cons.injEq]
      constructor
      · rintro ⟨hl, rfl, h⟩
        exact ⟨rfl, this.1 ⟨hl, h⟩⟩
      · rintro ⟨rfl, h⟩
        exact ⟨(this.2 h).1, rfl, (this.2 h).2⟩

end Bytes

end SealedChannel
