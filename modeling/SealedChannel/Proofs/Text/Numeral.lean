import SealedChannel.Text.Numeral

/-!
# Decimal numerals there and back

A numeral is read from the left, one digit at a time, and written from the right, one remainder at a
time.  The limit of the reader bounds the number as a whole, and with it all numbers on the way.

## What is here

* `Numeral.natural_toString`, `Numeral.integer?_toString` — the decimal text of a number within the
  limits is read back.
* `Numeral.isDigit_of_mem_toString`, `Numeral.mem_toString_int` — the characters of such a text.
-/

set_option autoImplicit false
namespace SealedChannel
namespace Numeral

variable {limit n : Nat}

/-! ## Digits -/

theorem digit?_digitChar : ∀ d < 10, digit? (Nat.digitChar d) = some d := by
  decide

/-- The last digit completes a number within the limit. -/
theorem push_digitChar (h : n ≤ limit) :
    push limit (n / 10) (Nat.digitChar (n % 10)) = .ok n := by
  have hn : 10 * (n / 10) + n % 10 = n := Nat.div_add_mod n 10
  rw [push, digit?_digitChar _ (Nat.mod_lt _ (by decide))]
  dsimp only
  rw [hn, if_pos h]

/-- The digits of a number are read back, the last one last. -/
theorem foldlM_toDigits (h : n ≤ limit) :
    (Nat.toDigits 10 n).foldlM (push limit) 0 = .ok n := by
  induction n using Nat.strongRecOn with
  | ind n ih =>
    rw [Nat.toDigits_eq_if (by decide)]
    split
    · rename_i hn
      have hpush := push_digitChar h
      rw [Nat.div_eq_of_lt hn, Nat.mod_eq_of_lt hn] at hpush
      rw [List.foldlM_cons, hpush]
      rfl
    · rename_i hn
      have hfront := ih (n / 10) (Nat.div_lt_self (by omega) (by decide)) (by omega)
      rw [List.foldlM_append, hfront]
      change (List.foldlM (push limit) (n / 10) [Nat.digitChar (n % 10)] : Except _ _) = _
      rw [List.foldlM_cons, push_digitChar h]
      rfl

theorem digits_toDigits (h : n ≤ limit) : digits limit (Nat.toDigits 10 n) = .ok n := by
  have hne : (Nat.toDigits 10 n).isEmpty = false := by
    rw [List.isEmpty_eq_false_iff]
    exact Nat.toDigits_ne_nil
  rw [digits, hne, foldlM_toDigits h]
  rfl

/-! ## Decimal texts -/

theorem toList_toString (n : Nat) : (toString n).toList = Nat.toDigits 10 n := by
  change n.repr.toList = _
  rw [Nat.repr_eq_ofList_toDigits, String.toList_ofList]

/-- The decimal text of a natural number holds digits only. -/
theorem isDigit_of_mem_toString {c : Char} (h : c ∈ (toString n).toList) : c.isDigit = true := by
  rw [toList_toString] at h
  exact Nat.isDigit_of_mem_toDigits (by decide) (by decide) h

theorem toList_toString_negSucc (n : Nat) :
    (toString (Int.negSucc n)).toList = '-' :: Nat.toDigits 10 (n + 1) := by
  change ("-" ++ (n + 1).repr).toList = _
  rw [String.toList_append, Nat.repr_eq_ofList_toDigits]
  exact congrArg _ String.toList_ofList

/-- The decimal text of an integer holds digits, after a minus sign or none. -/
theorem mem_toString_int {i : Int} {c : Char} (h : c ∈ (toString i).toList) :
    c = '-' ∨ c.isDigit = true := by
  cases i with
  | ofNat n => exact .inr (isDigit_of_mem_toString (n := n) h)
  | negSucc n =>
    rw [toList_toString_negSucc] at h
    rcases List.mem_cons.1 h with rfl | h
    · exact .inl rfl
    · exact .inr (Nat.isDigit_of_mem_toDigits (by decide) (by decide) h)

/-- A number has at least one digit. -/
theorem exists_toDigits_eq_cons (n : Nat) :
    ∃ c rest, Nat.toDigits 10 n = c :: rest ∧ c.isDigit = true := by
  cases hdigits : Nat.toDigits 10 n with
  | nil => exact absurd hdigits Nat.toDigits_ne_nil
  | cons c rest =>
    have hmem : c ∈ Nat.toDigits 10 n := hdigits ▸ List.mem_cons_self
    exact ⟨c, rest, rfl, Nat.isDigit_of_mem_toDigits (by decide) (by decide) hmem⟩

/-! ## Reading -/

theorem natural_toDigits (h : n ≤ limit) : natural limit (Nat.toDigits 10 n) = .ok n := by
  obtain ⟨c, rest, hdigits, hc⟩ := exists_toDigits_eq_cons n
  have hplus : c ≠ '+' := by
    rintro rfl
    cases hc
  rw [hdigits, natural, if_neg hplus, ← hdigits, digits_toDigits h]

/-- **Natural numbers there and back.** -/
theorem natural_toString (h : n ≤ limit) : natural limit (toString n).toList = .ok n := by
  rw [toList_toString, natural_toDigits h]

/-- **Integers there and back.** -/
theorem integer?_toString {below above : Nat} {i : Int} (hbelow : -(below : Int) ≤ i)
    (habove : i ≤ above) : integer? below above (toString i).toList = some i := by
  cases i with
  | ofNat n =>
    have htext : (toString (Int.ofNat n)).toList = Nat.toDigits 10 n := toList_toString n
    obtain ⟨c, rest, hdigits, hc⟩ := exists_toDigits_eq_cons n
    have hminus : c ≠ '-' := by
      rintro rfl
      cases hc
    rw [htext, hdigits, integer?.eq_2 _ _ _ fun _ h => hminus (List.cons.inj h).1, ← hdigits,
      natural_toDigits (Int.ofNat_le.1 habove)]
    rfl
  | negSucc n =>
    have hn : n + 1 ≤ below := by omega
    rw [toList_toString_negSucc, integer?, digits_toDigits hn]
    rfl

end Numeral

end SealedChannel
