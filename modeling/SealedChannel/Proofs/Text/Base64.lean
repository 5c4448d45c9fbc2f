import SealedChannel.Text.Base64

/-!
# Base64 there and back

## What is here

* `Base64.lastQuantum?_one`, `Base64.lastQuantum?_two`, `Base64.lastQuantum?_three`,
  `Base64.innerQuantum?_three` — each quantum is read back.
* `Base64.decode?_encode` — every byte string is read back.
* `Base64.encodeChars_of_lastQuantum?`, `Base64.encodeChars_of_innerQuantum?` — a quantum that can
  be read is written in no other way.
* `Base64.decode?_eq_some_iff` — a byte string has one text.
-/

set_option autoImplicit false
namespace SealedChannel
namespace Base64

/-! ## One quantum -/

/-- No digit is the padding. -/
theorem digit_ne_padding : ∀ n < 64, digit n ≠ '=' := by
  decide

theorem ofNat_eq {a : UInt8} {n : Nat} (h : n = a.toNat) : UInt8.ofNat n = a := by
  rw [h, UInt8.ofNat_toNat]

theorem lastQuantum?_one (a : UInt8) :
    lastQuantum? (digit (a.toNat / 4)) (digit (a.toNat % 4 * 16)) '=' '=' = some [a] := by
  have ha := a.toNat_lt
  rw [lastQuantum?, value?_digit _ (by omega), value?_digit _ (by omega)]
  have hrest : a.toNat % 4 * 16 % 16 = 0 := by omega
  have hbyte : UInt8.ofNat (a.toNat / 4 * 4 + a.toNat % 4 * 16 / 16) = a := ofNat_eq (by omega)
  simp only [Option.bind_eq_bind, Option.bind_some]
  rw [if_pos ⟨trivial, trivial⟩, if_pos hrest, hbyte]

theorem lastQuantum?_two (a b : UInt8) :
    lastQuantum? (digit (a.toNat / 4)) (digit (a.toNat % 4 * 16 + b.toNat / 16))
      (digit (b.toNat % 16 * 4)) '=' = some [a, b] := by
  have ha := a.toNat_lt
  have hb := b.toNat_lt
  rw [lastQuantum?, value?_digit _ (by omega), value?_digit _ (by omega), value?_digit _ (by omega)]
  have hthird : digit (b.toNat % 16 * 4) ≠ '=' := digit_ne_padding _ (by omega)
  have hrest : b.toNat % 16 * 4 % 4 = 0 := by omega
  have hfirst : UInt8.ofNat (a.toNat / 4 * 4 + (a.toNat % 4 * 16 + b.toNat / 16) / 16) = a :=
    ofNat_eq (by omega)
  have hsecond : UInt8.ofNat ((a.toNat % 4 * 16 + b.toNat / 16) % 16 * 16 + b.toNat % 16 * 4 / 4)
      = b := ofNat_eq (by omega)
  simp only [Option.bind_eq_bind, Option.bind_some]
  rw [if_neg fun h => hthird h.1, if_pos trivial, if_pos hrest, hfirst, hsecond]

section Three

variable (a b c : UInt8)

/-- The three bytes of a full quantum. -/
theorem bytes_of_quantum :
    [UInt8.ofNat (a.toNat / 4 * 4 + (a.toNat % 4 * 16 + b.toNat / 16) / 16),
      UInt8.ofNat ((a.toNat % 4 * 16 + b.toNat / 16) % 16 * 16
        + (b.toNat % 16 * 4 + c.toNat / 64) / 4),
      UInt8.ofNat ((b.toNat % 16 * 4 + c.toNat / 64) % 4 * 64 + c.toNat % 64)] = [a, b, c] := by
  have ha := a.toNat_lt
  have hb := b.toNat_lt
  have hc := c.toNat_lt
  rw [ofNat_eq (a := a) (by omega), ofNat_eq (a := b) (by omega), ofNat_eq (a := c) (by omega)]

theorem lastQuantum?_three :
    lastQuantum? (digit (a.toNat / 4)) (digit (a.toNat % 4 * 16 + b.toNat / 16))
      (digit (b.toNat % 16 * 4 + c.toNat / 64)) (digit (c.toNat % 64)) = some [a, b, c] := by
  have ha := a.toNat_lt
  have hb := b.toNat_lt
  have hc := c.toNat_lt
  have hlast : digit (c.toNat % 64) ≠ '=' := digit_ne_padding _ (by omega)
  rw [← bytes_of_quantum a b c, lastQuantum?, value?_digit _ (by omega), value?_digit _ (by omega),
    value?_digit _ (by omega), value?_digit _ (by omega)]
  simp [hlast]

theorem innerQuantum?_three :
    innerQuantum? (digit (a.toNat / 4)) (digit (a.toNat % 4 * 16 + b.toNat / 16))
      (digit (b.toNat % 16 * 4 + c.toNat / 64)) (digit (c.toNat % 64)) = some [a, b, c] := by
  have ha := a.toNat_lt
  have hb := b.toNat_lt
  have hc := c.toNat_lt
  rw [← bytes_of_quantum a b c, innerQuantum?, value?_digit _ (by omega), value?_digit _ (by omega),
    value?_digit _ (by omega), value?_digit _ (by omega)]
  rfl

end Three

/-! ## Byte strings -/

theorem decodeChars?_encodeChars (bs : Bytes) : decodeChars? (encodeChars bs) = some bs := by
  fun_induction encodeChars bs with
  | case1 => rfl
  | case2 a => exact lastQuantum?_one a
  | case3 a b => exact lastQuantum?_two a b
  | case4 a b c rest ih =>
    -- whether this quantum is the last one is seen from what follows it
    cases hrest : encodeChars rest with
    | nil =>
      rw [hrest] at ih
      obtain rfl : [] = rest := Option.some.inj ih
      exact lastQuantum?_three a b c
    | cons d ds =>
      rw [hrest] at ih
      rw [decodeChars?, innerQuantum?_three, ih]
      · rfl
      · simp

/-- **Base64 there and back.** -/
@[simp]
theorem decode?_encode (bs : Bytes) : decode? (encode bs) = some bs := by
  rw [decode?, encode, String.toList_ofList, decodeChars?_encodeChars]

/-! ## One text for each byte string -/

theorem digit_of_value? {c : Char} {n : Nat} (h : value? c = some n) : n < 64 ∧ digit n = c := by
  rw [value?] at h
  have hchar (m : Nat) (hm : m = c.toNat) : Char.ofNat m = c := by rw [hm, Char.ofNat_toNat]
  split at h
  · cases h
    refine ⟨by omega, ?_⟩
    rw [digit, if_pos (by omega), hchar _ (by omega)]
  · split at h
    · cases h
      refine ⟨by omega, ?_⟩
      rw [digit, if_neg (by omega), if_pos (by omega), hchar _ (by omega)]
    · split at h
      · cases h
        refine ⟨by omega, ?_⟩
        rw [digit, if_neg (by omega), if_neg (by omega), if_pos (by omega), hchar _ (by omega)]
      · split at h
        · rename_i hplus
          cases h
          exact ⟨by decide, hplus.symm⟩
        · split at h
          · rename_i hslash
            cases h
            exact ⟨by decide, hslash.symm⟩
          · cases h

section Quanta

variable {x y z w : Nat}

/-- The digits of the three bytes that four values make are those values. -/
theorem digits_of_values (hx : x < 64) (hy : y < 64) (hz : z < 64) (hw : w < 64) :
    (UInt8.ofNat (x * 4 + y / 16)).toNat / 4 = x ∧
    (UInt8.ofNat (x * 4 + y / 16)).toNat % 4 * 16
      + (UInt8.ofNat (y % 16 * 16 + z / 4)).toNat / 16 = y ∧
    (UInt8.ofNat (y % 16 * 16 + z / 4)).toNat % 16 * 4
      + (UInt8.ofNat (z % 4 * 64 + w)).toNat / 64 = z ∧
    (UInt8.ofNat (z % 4 * 64 + w)).toNat % 64 = w := by
  simp only [UInt8.toNat_ofNat']
  omega

end Quanta

variable {a b c d : Char} {bs : Bytes}

/-- A quantum of three bytes, whatever follows it. -/
theorem encodeChars_of_innerQuantum? (h : innerQuantum? a b c d = some bs) (rest : Bytes) :
    encodeChars (bs ++ rest) = a :: b :: c :: d :: encodeChars rest := by
  rw [innerQuantum?] at h
  simp only [Option.bind_eq_bind, Option.bind_eq_some_iff, Option.some.injEq] at h
  obtain ⟨x, hx, y, hy, z, hz, w, hw, rfl⟩ := h
  obtain ⟨hx64, rfl⟩ := digit_of_value? hx
  obtain ⟨hy64, rfl⟩ := digit_of_value? hy
  obtain ⟨hz64, rfl⟩ := digit_of_value? hz
  obtain ⟨hw64, rfl⟩ := digit_of_value? hw
  obtain ⟨h1, h2, h3, h4⟩ := digits_of_values hx64 hy64 hz64 hw64
  simp only [List.cons_append, List.nil_append]
  rw [encodeChars, h1, h2, h3, h4]

/-- The last quantum, in each of its three forms. -/
theorem encodeChars_of_lastQuantum? (h : lastQuantum? a b c d = some bs) :
    encodeChars bs = [a, b, c, d] := by
  rw [lastQuantum?] at h
  simp only [Option.bind_eq_bind, Option.bind_eq_some_iff] at h
  obtain ⟨x, hx, y, hy, h⟩ := h
  obtain ⟨hx64, rfl⟩ := digit_of_value? hx
  obtain ⟨hy64, rfl⟩ := digit_of_value? hy
  split at h
  · rename_i hpadding
    obtain ⟨rfl, rfl⟩ := hpadding
    split at h
    · cases h
      have hfirst : (UInt8.ofNat (x * 4 + y / 16)).toNat / 4 = x := by
        rw [UInt8.toNat_ofNat']
        omega
      have hsecond : (UInt8.ofNat (x * 4 + y / 16)).toNat % 4 * 16 = y := by
        rw [UInt8.toNat_ofNat']
        omega
      rw [encodeChars, hfirst, hsecond]
    · cases h
  · rw [Option.bind_eq_some_iff] at h
    obtain ⟨z, hz, h⟩ := h
    obtain ⟨hz64, rfl⟩ := digit_of_value? hz
    split at h
    · rename_i hpadding
      subst hpadding
      split at h
      · cases h
        obtain ⟨h1, h2, -, -⟩ := digits_of_values hx64 hy64 hz64 (w := 0) (by decide)
        have hthird : (UInt8.ofNat (y % 16 * 16 + z / 4)).toNat % 16 * 4 = z := by
          rw [UInt8.toNat_ofNat']
          omega
        rw [encodeChars, h1, h2, hthird]
      · cases h
    · rw [Option.bind_eq_some_iff] at h
      obtain ⟨w, hw, h⟩ := h
      cases h
      obtain ⟨hw64, rfl⟩ := digit_of_value? hw
      obtain ⟨h1, h2, h3, h4⟩ := digits_of_values hx64 hy64 hz64 hw64
      rw [encodeChars, h1, h2, h3, h4]
      rfl

theorem encodeChars_of_decodeChars? {cs : List Char} (h : decodeChars? cs = some bs) :
    encodeChars bs = cs := by
  fun_induction decodeChars? cs generalizing bs with
  | case1 => cases h; rfl
  | case2 a b c d => exact encodeChars_of_lastQuantum? h
  | case3 a b c d rest hrest ih =>
    simp only [Option.bind_eq_bind, Option.bind_eq_some_iff, Option.some.injEq] at h
    obtain ⟨quantum, hquantum, bytes, hbytes, rfl⟩ := h
    rw [encodeChars_of_innerQuantum? hquantum, ih hbytes]
  | case4 => cases h

/-- **One text for each byte string.**  The texts that are read as a byte string are the one that it
is written as. -/
theorem decode?_eq_some_iff {s : String} : decode? s = some bs ↔ s = encode bs := by
  refine ⟨fun h => ?_, fun h => h ▸ decode?_encode bs⟩
  rw [encode, encodeChars_of_decodeChars? h, String.ofList_toList]

end Base64

end SealedChannel
