import SealedChannel.Proofs.Json.Document
import SealedChannel.Proofs.Storage.Modes

/-!
# The stored form of a mode

A mode is stored as a single digit, but anybody may have written what is read in its place.  What is
read as a mode is its digit with blanks around it and nothing else: no other way to write the
number, and no other number, however long.

## What is here

* `Mode.digit`, `Mode.Writes` — the byte strings that stand for a mode.
* `Mode.decode?_eq_some_iff`, `Mode.current_eq_p2p_iff` — they and no others are read as that mode.
* `Mode.Stray`, `Mode.Stray.not_writes` — byte strings that come close and stand for none.
* `Mode.stored_grammar` — all of this, and that it is what the reader of documents makes of them.
-/

set_option autoImplicit false
namespace SealedChannel
namespace Mode

variable {m : Mode} {raw : Bytes} {n : Nat}

/-! ## The byte strings that stand for a mode -/

/-- The digit under which a mode is stored. -/
def digit : Mode → UInt8
  | .plain => 0x30
  | .p2p => 0x31

/-- The byte strings that stand for a mode: its digit with any number of blanks around it. -/
def Writes (m : Mode) (raw : Bytes) : Prop :=
  Json.Padded [m.digit] raw

theorem encode_eq (m : Mode) : m.encode = [m.digit] := by
  cases m <;> rfl

theorem not_blank_digit (m : Mode) : ¬ Json.Blank m.digit := by
  cases m <;> rintro ⟨⟩

theorem toNat_digit_lt (m : Mode) : m.digit.toNat < 0x80 := by
  cases m <;> decide

/-- **What is read as a mode** is its digit between blanks. -/
theorem decode?_eq_some_iff : decode? raw = some m ↔ Writes m raw := by
  have hlimit : m.tag < UInt64.size := by cases m <;> decide
  calc decode? raw = some m ↔ Json.natural? (Json.strip raw) = some m.tag := by
        simp only [decode?, Option.bind_eq_some_iff, ofTag?_eq_some_iff, exists_eq_right]
    _ ↔ Json.Padded m.encode raw := by
        rw [Json.natural?_strip_eq_some_iff, and_iff_right hlimit, encode]
    _ ↔ Writes m raw := by rw [encode_eq, Writes]

/-- A number is read as the mode whose tag it is, be it within the limit of the reader or not. -/
theorem decode?_of_padded (h : Json.Padded (Json.naturalDigits n) raw) :
    decode? raw = ofTag? n := by
  have hstrip := Json.strip_eq_naturalDigits_iff.2 h
  refine Option.ext fun m => ?_
  rw [decode?_eq_some_iff, ofTag?_eq_some_iff, Writes, ← encode_eq, encode,
    ← Json.strip_eq_naturalDigits_iff, hstrip]
  refine ⟨fun heq => ?_, fun heq => by rw [heq]⟩
  rw [← Json.digitsToNat_naturalDigits n, heq, Json.digitsToNat_naturalDigits]

/-- A channel is encrypted if and only if a value is stored for it that stands for encryption. -/
theorem current_eq_p2p_iff {stored : Option Bytes} :
    current stored = .p2p ↔ ∃ value, stored = some value ∧ Writes .p2p value := by
  cases stored with
  | none => simp [current]
  | some value =>
    simp only [current, Option.bind_some, Option.some.injEq, exists_eq_left',
      ← decode?_eq_some_iff]
    cases decode? value <;> simp

/-! ## The byte strings that stand for none -/

/-- All bytes but one are blanks, and that one is the digit. -/
theorem Writes.eq_digit (h : Writes m raw) {b : UInt8} (hb : b ∈ raw) (hblank : ¬ Json.Blank b) :
    b = m.digit := by
  obtain ⟨before, after, hbefore, hafter, rfl⟩ := h
  rcases List.mem_append.1 hb with hb | hb
  · rcases List.mem_append.1 hb with hb | hb
    · exact absurd (hbefore b hb) hblank
    · exact List.mem_singleton.1 hb
  · exact absurd (hafter b hb) hblank

/-- Between the blanks there is one byte, not two. -/
theorem Writes.blank_of_append {before after : Bytes} (h : Writes m (before ++ after)) :
    (∀ b ∈ before, Json.Blank b) ∨ ∀ b ∈ after, Json.Blank b := by
  obtain ⟨front, back, hfront, hback, heq⟩ := h
  rw [List.append_assoc, List.append_eq_append_iff] at heq
  rcases heq with ⟨rest, rfl, -⟩ | ⟨rest, rfl, heq⟩
  · exact .inl fun b hb => hfront b (List.mem_append_left _ hb)
  · cases rest with
    | nil => exact .inl (by simpa using hfront)
    | cons c rest =>
      obtain ⟨-, rfl⟩ := List.cons.inj heq
      exact .inr fun b hb => hback b (List.mem_append_right _ hb)

/-- What stands for a mode is text. -/
theorem Writes.exists_text (h : Writes m raw) : ∃ text, Utf8.decode? raw = some text := by
  have hascii : ∀ b ∈ raw, b.toNat < 0x80 := by
    intro b hb
    rcases Classical.em (Json.Blank b) with hblank | hblank
    · cases hblank <;> decide
    · rw [h.eq_digit hb hblank]
      exact toNat_digit_lt m
  obtain ⟨text, rfl⟩ := Utf8.exists_ofText_of_ascii hascii
  exact ⟨text, Utf8.decode?_ofText text⟩

/-- Signs, the point, the letters of an exponent, and the quote. -/
inductive Mark : UInt8 → Prop
  | plus : Mark 0x2B
  | minus : Mark 0x2D
  | point : Mark 0x2E
  | lowerExponent : Mark 0x65
  | upperExponent : Mark 0x45
  | quote : Mark 0x22

theorem Mark.not_blank {b : UInt8} (h : Mark b) : ¬ Json.Blank b := by
  cases h <;> rintro ⟨⟩

theorem Mark.ne_digit {b : UInt8} (h : Mark b) (m : Mode) : b ≠ m.digit := by
  cases h <;> cases m <;> decide

/-- Byte strings that come close to a stored mode. -/
inductive Stray : Bytes → Prop
  /-- With a sign, a fraction or an exponent, or with a string. -/
  | mark {raw : Bytes} {b : UInt8} (hb : b ∈ raw) (hmark : Mark b) : Stray raw
  /-- With a zero in front of another digit. -/
  | leadingZero (before after : Bytes) {b : UInt8} (hb : Json.isDigit b = true) :
    Stray (before ++ 0x30 :: b :: after)
  /-- A document with more than blanks behind it. -/
  | trailing {document rest : Bytes} {value : Json} {b : UInt8}
    (hdocument : Json.parse? document = some value) (hb : b ∈ rest) (hblank : ¬ Json.Blank b) :
    Stray (document ++ rest)
  /-- Not even text. -/
  | malformed {raw : Bytes} (h : Utf8.decode? raw = none) : Stray raw

/-- **They stand for none.** -/
theorem Stray.not_writes (h : Stray raw) (m : Mode) : ¬ Writes m raw := by
  intro hwrites
  cases h with
  | mark hb hmark => exact hmark.ne_digit m (hwrites.eq_digit hb hmark.not_blank)
  | leadingZero before after hb =>
    rw [List.append_cons] at hwrites
    rcases hwrites.blank_of_append with hblank | hblank
    · exact absurd (hblank 0x30 (by simp)) (not_blank_digit .plain)
    · exact Json.not_blank_of_isDigit hb (hblank _ List.mem_cons_self)
  | trailing hdocument hb hblank =>
    rcases hwrites.blank_of_append with hbefore | hafter
    · rw [Json.parse?_of_blank hbefore] at hdocument
      cases hdocument
    · exact hblank (hafter _ hb)
  | malformed hutf8 =>
    obtain ⟨text, htext⟩ := hwrites.exists_text
    rw [hutf8] at htext
    cases htext

/-! ## The grammar -/

/-- **The grammar of a stored mode.**  A byte string is read as a mode if and only if it is the
digit of that mode with blanks around it.  All others are read as none, and among them are those
with signs, leading zeros, fractions, exponents, quotes, anything behind the value, or malformed
text.  A number of any length is read as the mode whose tag it is, and as none if it is no tag.
This is what comes of reading a document, taking the number if it is one, and looking up the tag.
So a mode that was stored is read as that mode and no other, and a channel is encrypted only by a
value that stands for encryption. -/
theorem stored_grammar (raw : Bytes) :
    (∀ m, decode? raw = some m ↔ Writes m raw) ∧
    (decode? raw = none ↔ ∀ m, ¬ Writes m raw) ∧
    (Stray raw → decode? raw = none) ∧
    (∀ n, Json.Padded (Json.naturalDigits n) raw → decode? raw = ofTag? n) ∧
    decode? raw = ((Json.parse? raw).bind Json.size?).bind ofTag? ∧
    (∀ m m', decode? m.encode = some m' ↔ m' = m) ∧
    ∀ stored, current stored = .p2p ↔ ∃ value, stored = some value ∧ Writes .p2p value := by
  have hnone : decode? raw = none ↔ ∀ m, ¬ Writes m raw := by
    simp only [← decode?_eq_some_iff, Option.eq_none_iff_forall_ne_some, ne_eq]
  refine ⟨fun m => decode?_eq_some_iff, hnone, fun h => hnone.2 h.not_writes,
    fun n => decode?_of_padded, ?_, fun m m' => ?_, fun stored => current_eq_p2p_iff⟩
  · rw [Json.size?_parse?, decode?]
  · rw [decode?_encode, Option.some.injEq, eq_comm]

/-- A number that is the tag of encryption in 64 bits, with blanks around it. -/
def wrapped : Bytes :=
  Bytes.ofText "\r\n 18446744073709551617\t"

/-- Zero with a sign. -/
def negativeZero : Bytes :=
  Bytes.ofText " -0"

theorem stored_grammar_of_wrapped :
    Json.Padded (Json.naturalDigits 18446744073709551617) wrapped ∧ decode? wrapped = none ∧
      Stray negativeZero ∧ decode? negativeZero = none := by
  have hpadded : Json.Padded (Json.naturalDigits 18446744073709551617) wrapped :=
    Json.strip_eq_naturalDigits_iff.1 (by decide +kernel)
  have hstray : Stray negativeZero := .mark (b := 0x2D) (by decide) .minus
  exact ⟨hpadded, (stored_grammar wrapped).2.2.2.1 _ hpadded, hstray,
    (stored_grammar negativeZero).2.2.1 hstray⟩

end Mode

end SealedChannel
