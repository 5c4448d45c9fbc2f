import SealedChannel.Text.Utf8

/-!
# UTF-8 there and back

What is written as UTF-8 is read back, by the strict reading and by the lossy one, whatever the
characters are.

## What is here

* `Utf8.lead_two`, `Utf8.lead_three`, `Utf8.lead_four` — what the first byte of a character
  promises.
* `Utf8.foldl_step_char` — the machine reads one character.
* `Utf8.pieces_ofChars`, `Utf8.decode?_ofChars`, `Utf8.decode?_ofText`, `Utf8.decodeLossy_ofText` —
  it reads a whole text.
* `Utf8.ofText_decodeLossy_of_ascii` — what is read of ASCII is written again as it was.
-/

set_option autoImplicit false
namespace SealedChannel
namespace Utf8

/-! ## First bytes -/

theorem lead_two {n : Nat} (hlow : 0xC2 ≤ n) (hhigh : n < 0xE0) :
    lead n = some ⟨n - 0xC0, 1, 0x80, 0xBF⟩ := by
  rw [lead, if_neg (by omega), if_pos hhigh]

theorem lead_three {n : Nat} (hlow : 0xE0 ≤ n) (hhigh : n < 0xF0) :
    lead n = some ⟨n - 0xE0, 2, if n = 0xE0 then 0xA0 else 0x80,
      if n = 0xED then 0x9F else 0xBF⟩ := by
  rw [lead, if_neg (by omega), if_neg (by omega)]
  rcases Decidable.em (n = 0xE0) with rfl | hfirst
  · rfl
  · rcases Decidable.em (n = 0xED) with rfl | hlast
    · rfl
    · rw [if_neg hfirst, if_neg hlast, if_pos hhigh, if_neg hfirst, if_neg hlast]

theorem lead_four {n : Nat} (hlow : 0xF0 ≤ n) (hhigh : n ≤ 0xF4) :
    lead n = some ⟨n - 0xF0, 3, if n = 0xF0 then 0x90 else 0x80,
      if n = 0xF4 then 0x8F else 0xBF⟩ := by
  rw [lead, if_neg (by omega), if_neg (by omega), if_neg (by omega), if_neg (by omega),
    if_neg (by omega)]
  rcases Decidable.em (n = 0xF0) with rfl | hfirst
  · rfl
  · rcases Decidable.em (n = 0xF4) with rfl | hlast
    · rfl
    · rw [if_neg hfirst, if_pos (by omega), if_neg hfirst, if_neg hlast]

/-! ## One character -/

variable {done : List (Option Char)} {b : UInt8} {n : Nat}

/-- Bytes below the first non-ASCII one are characters. -/
theorem step_ascii (hb : b.toNat = n) (hn : n < 0x80) :
    Decoder.step ⟨done, none⟩ b = ⟨some (Char.ofNat n) :: done, none⟩ := by
  simp [Decoder.step, Decoder.enter, hb, hn]

theorem step_lead {p : Pending} (hb : b.toNat = n) (hn : 0x80 ≤ n) (hlead : lead n = some p) :
    Decoder.step ⟨done, none⟩ b = ⟨done, some p⟩ := by
  have hascii : ¬ n < 0x80 := by omega
  simp [Decoder.step, Decoder.enter, hb, hascii, hlead]

theorem step_more {p : Pending} (hb : b.toNat = n) (hlow : p.low ≤ n) (hhigh : n ≤ p.high)
    (howed : 1 < p.owed) :
    Decoder.step ⟨done, some p⟩ b
      = ⟨done, some ⟨64 * p.bits + (n - 0x80), p.owed - 1, 0x80, 0xBF⟩⟩ := by
  have hlast : ¬ p.owed ≤ 1 := by omega
  simp [Decoder.step, hb, hlow, hhigh, hlast]

theorem step_last {p : Pending} (hb : b.toNat = n) (hlow : p.low ≤ n) (hhigh : n ≤ p.high)
    (howed : p.owed ≤ 1) :
    Decoder.step ⟨done, some p⟩ b
      = ⟨some (Char.ofNat (64 * p.bits + (n - 0x80))) :: done, none⟩ := by
  simp [Decoder.step, hb, hlow, hhigh, howed]

/-- The bytes of a character by its number. -/
theorem utf8EncodeChar_eq (c : Char) :
    String.utf8EncodeChar c =
      if c.toNat ≤ 0x7F then [UInt8.ofNat c.toNat]
      else if c.toNat ≤ 0x7FF then
        [UInt8.ofNat (c.toNat / 64 % 0x20 + 0xC0), UInt8.ofNat (c.toNat % 0x40 + 0x80)]
      else if c.toNat ≤ 0xFFFF then
        [UInt8.ofNat (c.toNat / 4096 % 0x10 + 0xE0), UInt8.ofNat (c.toNat / 64 % 0x40 + 0x80),
          UInt8.ofNat (c.toNat % 0x40 + 0x80)]
      else
        [UInt8.ofNat (c.toNat / 262144 % 0x08 + 0xF0), UInt8.ofNat (c.toNat / 4096 % 0x40 + 0x80),
          UInt8.ofNat (c.toNat / 64 % 0x40 + 0x80), UInt8.ofNat (c.toNat % 0x40 + 0x80)] :=
  rfl

/-- **One character.**  The machine reads the bytes of a character as that character. -/
theorem foldl_step_char (done : List (Option Char)) (c : Char) :
    (String.utf8EncodeChar c).foldl Decoder.step ⟨done, none⟩ = ⟨some c :: done, none⟩ := by
  have hvalid : c.toNat < 0xD800 ∨ 0xDFFF < c.toNat ∧ c.toNat < 0x110000 := c.valid
  have hbyte {k : Nat} (hk : k < 256) : (UInt8.ofNat k).toNat = k := Nat.mod_eq_of_lt hk
  have hchar {k : Nat} (hk : k = c.toNat) : Char.ofNat k = c := by rw [hk, Char.ofNat_toNat]
  rw [utf8EncodeChar_eq]
  split
  · rw [List.foldl_cons, List.foldl_nil, step_ascii (hbyte (by omega)) (by omega), hchar rfl]
  · split
    · rw [List.foldl_cons, List.foldl_cons, List.foldl_nil,
        step_lead (hbyte (by omega)) (by omega) (lead_two (by omega) (by omega)),
        step_last (hbyte (by omega)) (by dsimp only; omega) (by dsimp only; omega) (Nat.le_refl 1),
        hchar (by dsimp only; omega)]
    · split
      · -- the bounds of the second byte rule out overlong forms and surrogates
        rw [List.foldl_cons, List.foldl_cons, List.foldl_cons, List.foldl_nil,
          step_lead (hbyte (by omega)) (by omega) (lead_three (by omega) (by omega)),
          step_more (hbyte (by omega)) (by dsimp only; split <;> omega)
            (by dsimp only; split <;> omega) (Nat.lt_succ_self 1),
          step_last (hbyte (by omega)) (by dsimp only; omega) (by dsimp only; omega)
            (Nat.le_refl 1),
          hchar (by dsimp only; omega)]
      · -- and here overlong forms and numbers beyond the last character
        rw [List.foldl_cons, List.foldl_cons, List.foldl_cons, List.foldl_cons, List.foldl_nil,
          step_lead (hbyte (by omega)) (by omega) (lead_four (by omega) (by omega)),
          step_more (hbyte (by omega)) (by dsimp only; split <;> omega)
            (by dsimp only; split <;> omega) (by dsimp only; omega),
          step_more (hbyte (by omega)) (by dsimp only; omega) (by dsimp only; omega)
            (Nat.lt_succ_self 1),
          step_last (hbyte (by omega)) (by dsimp only; omega) (by dsimp only; omega)
            (Nat.le_refl 1),
          hchar (by dsimp only; omega)]

/-! ## Whole texts -/

theorem foldl_step_chars (done : List (Option Char)) (cs : List Char) :
    (Bytes.ofChars cs).foldl Decoder.step ⟨done, none⟩
      = ⟨(cs.map some).reverse ++ done, none⟩ := by
  induction cs generalizing done with
  | nil => rfl
  | cons c cs ih =>
    rw [Bytes.ofChars, List.flatMap_cons, List.foldl_append, foldl_step_char, ← Bytes.ofChars, ih]
    simp

/-- **What is written is read.**  The pieces of an encoded text are its characters. -/
theorem pieces_ofChars (cs : List Char) : pieces (Bytes.ofChars cs) = cs.map some := by
  rw [pieces, Decoder.start, foldl_step_chars]
  simp [Decoder.finish]

@[simp]
theorem decode?_ofChars (cs : List Char) :
    decode? (Bytes.ofChars cs) = some (String.ofList cs) := by
  rw [decode?, pieces_ofChars]
  simp

@[simp]
theorem decode?_ofText (s : String) : decode? (Bytes.ofText s) = some s := by
  rw [Bytes.ofText, decode?_ofChars, String.ofList_toList]

@[simp]
theorem decodeLossy_ofText (s : String) : decodeLossy (Bytes.ofText s) = s := by
  rw [decodeLossy, Bytes.ofText, pieces_ofChars, List.map_map]
  exact (congrArg String.ofList (List.map_id s.toList)).trans String.ofList_toList

/-! ## ASCII -/

/-- An ASCII character is one byte. -/
theorem utf8EncodeChar_ascii {c : Char} (hc : c.toNat < 0x80) :
    String.utf8EncodeChar c = [UInt8.ofNat c.toNat] := by
  rw [utf8EncodeChar_eq, if_pos (by omega)]

/-- A byte string of ASCII characters is the form of a text. -/
theorem exists_ofText_of_ascii {bs : Bytes} (h : ∀ b ∈ bs, b.toNat < 0x80) :
    ∃ s, Bytes.ofText s = bs := by
  refine ⟨String.ofList (bs.map fun b => Char.ofNat b.toNat), ?_⟩
  rw [Bytes.ofText, String.toList_ofList]
  induction bs with
  | nil => rfl
  | cons b bs ih =>
    rw [List.forall_mem_cons] at h
    have hvalid : b.toNat.isValidChar := .inl (by omega)
    have hchar : (Char.ofNat b.toNat).toNat = b.toNat := by
      rw [Char.ofNat, dif_pos hvalid]
      rfl
    have hbyte : String.utf8EncodeChar (Char.ofNat b.toNat) = [b] := by
      rw [utf8EncodeChar_ascii (by omega), hchar, UInt8.ofNat_toNat]
    rw [Bytes.ofChars, List.map_cons, List.flatMap_cons, hbyte, ← Bytes.ofChars, ih h.2]
    rfl

theorem ofText_decodeLossy_of_ascii {bs : Bytes} (h : ∀ b ∈ bs, b.toNat < 0x80) :
    Bytes.ofText (decodeLossy bs) = bs := by
  obtain ⟨s, rfl⟩ := exists_ofText_of_ascii h
  rw [decodeLossy_ofText]

end Utf8

end SealedChannel
