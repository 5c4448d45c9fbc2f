import Mathlib.Data.List.DropRight
import SealedChannel.Json.Basic

/-!
# Numerals between blanks

A natural number has one decimal numeral, and of a byte string with blanks around a numeral, the
numeral is what is left without them.  Both directions count: what is read as a number is its
numeral, whatever else a digit string may be taken for.

## What is here

* `Json.Blank`, `Json.Padded`, `Json.strip_eq_iff` — what is left of a byte string without the
  blanks around it.
* `Json.IsDecimal`, `Json.naturalDigits_digitsToNat` — a number is written in one way.
* `Json.natural?_eq_some_iff`, `Json.natural?_strip_eq_some_iff` — what is read as a number.
-/

set_option autoImplicit false
namespace SealedChannel
namespace Json

variable {bs core digits : Bytes} {b : UInt8} {n : Nat}

/-! ## Blanks -/

/-- The blanks: space, tab, line feed and carriage return. -/
inductive Blank : UInt8 → Prop
  | space : Blank 0x20
  | tab : Blank 0x09
  | lineFeed : Blank 0x0A
  | carriageReturn : Blank 0x0D

theorem isSpace_eq_true_iff : isSpace b = true ↔ Blank b := by
  refine ⟨fun h => ?_, fun h => by cases h <;> rfl⟩
  simp only [isSpace, Bool.or_eq_true, beq_iff_eq] at h
  rcases h with ((rfl | rfl) | rfl) | rfl
  · exact .space
  · exact .tab
  · exact .lineFeed
  · exact .carriageReturn

/-- The bytes of `core` with any number of blanks around them. -/
def Padded (core bs : Bytes) : Prop :=
  ∃ before after, (∀ b ∈ before, Blank b) ∧ (∀ b ∈ after, Blank b) ∧ bs = before ++ core ++ after

/-- One more blank. -/
theorem Padded.concat (h : Padded core bs) (hb : Blank b) : Padded core (bs ++ [b]) := by
  obtain ⟨before, after, hbefore, hafter, rfl⟩ := h
  refine ⟨before, after ++ [b], hbefore, ?_, List.append_assoc ..⟩
  simpa [or_imp, forall_and] using ⟨hafter, hb⟩

theorem padded_strip (bs : Bytes) : Padded (strip bs) bs := by
  refine ⟨bs.takeWhile isSpace, (bs.dropWhile isSpace).rtakeWhile isSpace, fun b hb => ?_,
    fun b hb => ?_, ?_⟩
  · exact isSpace_eq_true_iff.1 (List.mem_takeWhile_imp hb)
  · exact isSpace_eq_true_iff.1 (List.mem_rtakeWhile_imp hb)
  · change bs = _ ++ (bs.dropWhile isSpace).rdropWhile isSpace ++ _
    rw [List.append_assoc, List.rdropWhile_append_rtakeWhile, List.takeWhile_append_dropWhile]

/-- Blanks in front are dropped up to the first other byte. -/
theorem dropWhile_isSpace_append {before : Bytes} (hbefore : ∀ b ∈ before, Blank b)
    (hb : ¬ Blank b) (rest : Bytes) :
    (before ++ b :: rest).dropWhile isSpace = b :: rest := by
  rw [List.dropWhile_append_of_pos fun c hc => isSpace_eq_true_iff.2 (hbefore c hc),
    List.dropWhile_cons_of_neg fun h => hb (isSpace_eq_true_iff.1 h)]

/-- **Without the blanks around it,** a byte string is the one that stands between them. -/
theorem strip_eq_iff (hne : core ≠ []) (hcore : ∀ b ∈ core, ¬ Blank b) :
    strip bs = core ↔ Padded core bs := by
  refine ⟨fun h => h ▸ padded_strip bs, ?_⟩
  rintro ⟨before, after, hbefore, hafter, rfl⟩
  obtain ⟨first, rest, rfl⟩ := List.exists_cons_of_ne_nil hne
  have hfront : (before ++ first :: rest ++ after).dropWhile isSpace = first :: rest ++ after := by
    rw [List.append_assoc]
    exact dropWhile_isSpace_append hbefore (hcore first List.mem_cons_self) (rest ++ after)
  obtain ⟨last, front, hlast⟩ := List.exists_cons_of_ne_nil (List.reverse_ne_nil_iff.2 hne)
  have hback : ((first :: rest) ++ after).reverse.dropWhile isSpace = (first :: rest).reverse := by
    rw [List.reverse_append, hlast]
    refine dropWhile_isSpace_append (by simpa using hafter) (hcore last ?_) front
    rw [← List.mem_reverse, hlast]
    exact List.mem_cons_self
  rw [strip, hfront, hback, List.reverse_reverse]

/-! ## Digits -/

/-- What a decimal numeral looks like: it has digits, and a zero in front only if that is all. -/
structure IsDecimal (digits : Bytes) : Prop where
  ne_nil : digits ≠ []
  isDigit : ∀ b ∈ digits, isDigit b = true
  front : digits.length = 1 ∨ digits.head? ≠ some 48

theorem isDigit_eq_true_iff : isDigit b = true ↔ 48 ≤ b.toNat ∧ b.toNat ≤ 57 := by
  simp [isDigit]

theorem not_blank_of_isDigit (h : isDigit b = true) : ¬ Blank b := by
  rintro ⟨⟩ <;> exact absurd h (by decide)

/-- The byte of a digit. -/
theorem toNat_ofNat_digit {d : Nat} (hd : d < 10) : (UInt8.ofNat (48 + d)).toNat = 48 + d :=
  Nat.mod_eq_of_lt (by omega)

theorem ofNat_digit (h : isDigit b = true) : UInt8.ofNat (48 + (b.toNat - 48)) = b := by
  have hrange := isDigit_eq_true_iff.1 h
  rw [Nat.add_sub_cancel' hrange.1]
  exact UInt8.ofNat_toNat

theorem ofChars_digitChar : ∀ d < 10, Bytes.ofChars [Nat.digitChar d] = [UInt8.ofNat (48 + d)] := by
  decide

theorem naturalDigits_of_lt (h : n < 10) : naturalDigits n = [UInt8.ofNat (48 + n)] := by
  rw [naturalDigits, Nat.toDigits_eq_if (by decide), if_pos h, ofChars_digitChar n h]

theorem naturalDigits_of_le (h : 10 ≤ n) :
    naturalDigits n = naturalDigits (n / 10) ++ [UInt8.ofNat (48 + n % 10)] := by
  rw [naturalDigits, Nat.toDigits_eq_if (by decide), if_neg (by omega), Bytes.ofChars,
    List.flatMap_append, ← Bytes.ofChars, ← naturalDigits]
  exact congrArg _ (ofChars_digitChar _ (Nat.mod_lt n (by decide)))

/-- The last digit of a numeral. -/
theorem digitsToNat_concat (digits : Bytes) (b : UInt8) :
    digitsToNat (digits ++ [b]) = 10 * digitsToNat digits + (b.toNat - 48) := by
  rw [digitsToNat, List.foldl_append, ← digitsToNat]
  rfl

/-- The digits of a number write that number. -/
theorem digitsToNat_naturalDigits (n : Nat) : digitsToNat (naturalDigits n) = n := by
  induction n using Nat.strongRecOn with
  | ind n ih =>
    rcases Nat.lt_or_ge n 10 with hn | hn
    · rw [naturalDigits_of_lt hn]
      change 10 * 0 + ((UInt8.ofNat (48 + n)).toNat - 48) = n
      rw [toNat_ofNat_digit hn]
      omega
    · rw [naturalDigits_of_le hn, digitsToNat_concat, ih (n / 10) (by omega),
        toNat_ofNat_digit (Nat.mod_lt n (by decide))]
      omega

/-- The digits of a number have no zero in front, unless the number is zero. -/
theorem head?_naturalDigits (h : 0 < n) : (naturalDigits n).head? ≠ some 48 := by
  induction n using Nat.strongRecOn with
  | ind n ih =>
    rcases Nat.lt_or_ge n 10 with hn | hn
    · rw [naturalDigits_of_lt hn, List.head?_cons]
      intro heq
      have hnat := congrArg UInt8.toNat (Option.some.inj heq)
      rw [toNat_ofNat_digit hn] at hnat
      change 48 + n = 48 at hnat
      omega
    · have hfront := ih (n / 10) (by omega) (by omega)
      rw [naturalDigits_of_le hn]
      cases hdigits : naturalDigits (n / 10) with
      | nil =>
        have hzero := digitsToNat_naturalDigits (n / 10)
        rw [hdigits] at hzero
        change 0 = n / 10 at hzero
        omega
      | cons first rest => rwa [hdigits] at hfront

theorem isDecimal_naturalDigits (n : Nat) : IsDecimal (naturalDigits n) := by
  induction n using Nat.strongRecOn with
  | ind n ih =>
    have hlast {d : Nat} (hd : d < 10) : isDigit (UInt8.ofNat (48 + d)) = true := by
      rw [isDigit_eq_true_iff, toNat_ofNat_digit hd]
      omega
    rcases Nat.lt_or_ge n 10 with hn | hn
    · rw [naturalDigits_of_lt hn]
      exact ⟨by simp, by simpa using hlast hn, .inl rfl⟩
    · have hfront := head?_naturalDigits (n := n) (by omega)
      rw [naturalDigits_of_le hn] at hfront ⊢
      refine ⟨by simp, fun b hb => ?_, .inr hfront⟩
      rcases List.mem_append.1 hb with hb | hb
      · exact (ih (n / 10) (by omega)).isDigit b hb
      · obtain rfl := List.mem_singleton.1 hb
        exact hlast (Nat.mod_lt n (by decide))

/-- **A number is written in one way.**  A numeral has the digits of its number. -/
theorem naturalDigits_digitsToNat (h : IsDecimal digits) :
    naturalDigits (digitsToNat digits) = digits := by
  induction digits using List.reverseRecOn with
  | nil => exact absurd rfl h.ne_nil
  | append_singleton front b ih =>
    have hb : isDigit b = true := h.isDigit b (by simp)
    have hrange := isDigit_eq_true_iff.1 hb
    rw [digitsToNat_concat]
    cases hfront : front with
    | nil =>
      change naturalDigits (10 * 0 + (b.toNat - 48)) = [b]
      rw [Nat.mul_zero, Nat.zero_add, naturalDigits_of_lt (by omega), ofNat_digit hb]
    | cons first rest =>
      rw [← hfront]
      have hhead : front.head? ≠ some 48 := by
        have hwhole := h.front
        rw [hfront] at hwhole ⊢
        simpa using hwhole
      have hdecimal := ih ⟨by simp [hfront], fun c hc => h.isDigit c (by simp [hc]), .inr hhead⟩
      -- the digits in front write no zero, so the last digit stays apart
      have hpos : 0 < digitsToNat front := by
        refine Nat.pos_of_ne_zero fun hzero => hhead ?_
        rw [← hdecimal, hzero]
        rfl
      rw [naturalDigits_of_le (by omega),
        show (10 * digitsToNat front + (b.toNat - 48)) / 10 = digitsToNat front by omega,
        show (10 * digitsToNat front + (b.toNat - 48)) % 10 = b.toNat - 48 by omega, hdecimal,
        ofNat_digit hb]

/-- **Numerals.**  A number is read from its digits alone, if it is within the limit. -/
theorem natural?_eq_some_iff :
    natural? digits = some n ↔ n < UInt64.size ∧ digits = naturalDigits n := by
  have hform : IsDecimal digits ↔ (!digits.isEmpty && digits.all isDigit &&
      (digits.length == 1 || digits.head? != some 48)) = true := by
    simp only [Bool.and_eq_true, Bool.or_eq_true, Bool.not_eq_true', List.isEmpty_eq_false_iff,
      List.all_eq_true, beq_iff_eq, bne_iff_ne]
    exact ⟨fun h => ⟨⟨h.ne_nil, h.isDigit⟩, h.front⟩, fun h => ⟨h.1.1, h.1.2, h.2⟩⟩
  have hread : natural? digits = some n ↔
      (IsDecimal digits ∧ digitsToNat digits < UInt64.size) ∧ digitsToNat digits = n := by
    rw [natural?]
    simp only [Option.ite_none_right_eq_some, Option.some.injEq, hform, Bool.and_eq_true,
      decide_eq_true_eq]
  rw [hread]
  constructor
  · rintro ⟨⟨hdecimal, hlimit⟩, rfl⟩
    exact ⟨hlimit, (naturalDigits_digitsToNat hdecimal).symm⟩
  · rintro ⟨hlimit, rfl⟩
    rw [digitsToNat_naturalDigits]
    exact ⟨⟨isDecimal_naturalDigits n, hlimit⟩, rfl⟩

/-- The digits of a number with blanks around them. -/
theorem strip_eq_naturalDigits_iff :
    strip bs = naturalDigits n ↔ Padded (naturalDigits n) bs := by
  have hdecimal := isDecimal_naturalDigits n
  exact strip_eq_iff hdecimal.ne_nil fun b hb => not_blank_of_isDigit (hdecimal.isDigit b hb)

/-- The number between the blanks. -/
theorem natural?_strip_eq_some_iff :
    natural? (strip bs) = some n ↔ n < UInt64.size ∧ Padded (naturalDigits n) bs := by
  rw [natural?_eq_some_iff, strip_eq_naturalDigits_iff]

end Json

end SealedChannel
