import Mathlib.NumberTheory.LucasPrimality
import Mathlib.Tactic.NormNum.Prime
import SealedChannel.Curve.Field

/-!
# The primes of the curve

The field prime and the group order have 256 bits each, far beyond trial division.  Lucas's test
reduces the primality of `p` to a few powers modulo `p` and to the prime factors of `p - 1`, which
are tested in the same way until they are small.

## What is here

* `power` — powers by repeated squaring, for any multiplication, with `map_power`: a map that turns
  the multiplication into that of a monoid turns them into powers there.
* `LucasStep`, `LucasStep.holds` — one application of the test, with its factors proven before.
* `prime_fieldPrime`, `prime_groupOrder` — both numbers are prime.
-/

set_option autoImplicit false
namespace SealedChannel
namespace Curve

/-! ## Repeated squaring -/

/-- The power of `a` by an exponent of at most `bits` bits: the square of the power by half the
exponent, and `a` once more where the exponent is odd. -/
def power {α : Type} (mul : α → α → α) (one : α) : Nat → α → Nat → α
  | 0, _, _ => one
  | bits + 1, a, n =>
    let half := power mul one bits a (n / 2)
    if n % 2 = 1 then mul (mul half half) a else mul half half

/-- **Repeated squaring computes powers.** -/
theorem map_power {α M : Type} [Monoid M] {mul : α → α → α} {one : α} (φ : α → M)
    (hmul : ∀ a b, φ (mul a b) = φ a * φ b) (hone : φ one = 1) (a : α) (bits n : ℕ)
    (hn : n < 2 ^ bits) : φ (power mul one bits a n) = φ a ^ n := by
  induction bits generalizing n with
  | zero =>
    obtain rfl : n = 0 := by simpa using hn
    simp [power, hone]
  | succ bits ih =>
    have hhalf := ih (n / 2) (by rw [pow_succ] at hn; omega)
    have hsquare : φ (mul (power mul one bits a (n / 2)) (power mul one bits a (n / 2)))
        = φ a ^ (n / 2 + n / 2) := by rw [hmul, hhalf, pow_add]
    rw [power]
    by_cases hodd : n % 2 = 1
    · rw [if_pos hodd, hmul, hsquare, ← pow_succ]
      congr 1
      omega
    · rw [if_neg hodd, hsquare]
      congr 1
      omega

/-! ## Lucas's test -/

/-- One application of Lucas's test: a number, a root whose powers are to exhaust the units modulo
it, and the prime factors of its predecessor, each as often as it divides. -/
structure LucasStep where
  number : Nat
  root : Nat
  factors : List Nat

namespace LucasStep

/-- A power of the root modulo the number. -/
def rootPower (s : LucasStep) (n : Nat) : Nat :=
  power (fun a b => a * b % s.number) 1 256 s.root n

/-- Whether the test succeeds, with all factors among the numbers that are proven already. -/
def holds (proven : List Nat) (s : LucasStep) : Bool :=
  s.number < 2 ^ 256 && s.factors.all proven.contains && s.factors.prod == s.number - 1 &&
    s.rootPower (s.number - 1) % s.number == 1 % s.number &&
    s.factors.all fun q => s.rootPower ((s.number - 1) / q) % s.number != 1 % s.number

theorem rootPower_mod_eq_iff (s : LucasStep) {n : ℕ} (hn : n < 2 ^ 256) :
    s.rootPower n % s.number = 1 % s.number ↔ (s.root : ZMod s.number) ^ n = 1 := by
  have hpower : ((s.rootPower n : ℕ) : ZMod s.number) = (s.root : ZMod s.number) ^ n :=
    map_power (fun a : ℕ => (a : ZMod s.number)) (by simp) (by simp) s.root 256 n hn
  rw [← hpower, ← ZMod.natCast_eq_natCast_iff', Nat.cast_one]

/-- A number that passes the test is prime. -/
theorem prime_of_holds {proven : List ℕ} {s : LucasStep} (hproven : ∀ q ∈ proven, q.Prime)
    (h : s.holds proven = true) : s.number.Prime := by
  simp only [holds, Bool.and_eq_true, decide_eq_true_eq, beq_iff_eq, bne_iff_ne, List.all_eq_true,
    List.contains_iff_mem, ne_eq] at h
  obtain ⟨⟨⟨⟨hbits, hfactors⟩, hprod⟩, hone⟩, hne⟩ := h
  have hlt (n : ℕ) (hn : n ≤ s.number - 1) : n < 2 ^ 256 := by omega
  apply lucas_primality s.number s.root
  · exact (s.rootPower_mod_eq_iff (hlt _ le_rfl)).1 hone
  · intro q hq hdvd
    rw [← hprod] at hdvd
    obtain ⟨f, hf, hqf⟩ := hq.prime.dvd_prod_iff.1 hdvd
    obtain rfl : q = f := (Nat.prime_dvd_prime_iff_eq hq (hproven f (hfactors f hf))).1 hqf
    rw [ne_eq, ← s.rootPower_mod_eq_iff (hlt _ (Nat.div_le_self _ _))]
    exact hne q hf

/-- Whether the steps succeed one after another, each with the numbers of the earlier ones. -/
def allHold : List Nat → List LucasStep → Bool
  | _, [] => true
  | proven, s :: rest => s.holds proven && allHold (s.number :: proven) rest

/-- The number of every step is prime. -/
theorem prime_of_allHold {steps : List LucasStep} {proven : List ℕ}
    (hproven : ∀ q ∈ proven, q.Prime) (h : allHold proven steps = true) :
    ∀ s ∈ steps, s.number.Prime := by
  induction steps generalizing proven with
  | nil => simp
  | cons s rest ih =>
    rw [allHold, Bool.and_eq_true] at h
    have hs := prime_of_holds hproven h.1
    rw [List.forall_mem_cons]
    exact ⟨hs, ih (by simpa using ⟨hs, hproven⟩) h.2⟩

end LucasStep

/-! ## The two primes -/

/-- The primes at which the factoring ends. -/
def smallPrimes : List Nat :=
  [2, 3, 5, 7, 11, 17, 19, 23, 29, 41, 43, 53, 71, 107, 127, 131, 173, 197, 229, 257, 311, 373,
    641, 1201, 1297, 1531, 2411, 3023, 3407, 3677, 3769, 16879, 17449, 18169, 38189, 65537, 78283,
    104471, 126241, 155317, 490463, 704251]

theorem prime_of_mem_smallPrimes : ∀ q ∈ smallPrimes, q.Prime := by
  norm_num [smallPrimes]

/-- From the small primes up to the group order and the field prime. -/
def primeSteps : List LucasStep :=
  [⟨3969899, 2, [2, 19, 104471]⟩,
    ⟨6700417, 5, [2, 2, 2, 2, 2, 2, 2, 3, 17449]⟩,
    ⟨9350987, 2, [2, 17, 229, 1201]⟩,
    ⟨187019741, 2, [2, 2, 5, 9350987]⟩,
    ⟨191039911, 3, [2, 3, 5, 41, 155317]⟩,
    ⟨204061199, 11, [2, 11, 23, 107, 3769]⟩,
    ⟨311245691, 2, [2, 5, 7, 17, 29, 29, 311]⟩,
    ⟨622491383, 5, [2, 311245691]⟩,
    ⟨34282281433, 17, [2, 2, 2, 3, 7, 204061199]⟩,
    ⟨66417393611, 6, [2, 5, 53, 173, 197, 3677]⟩,
    ⟨1002328039319, 19, [2, 126241, 3969899]⟩,
    ⟨11290956913871, 13, [2, 5, 17, 66417393611]⟩,
    ⟨46076956964474543, 5, [2, 23, 18169, 78283, 704251]⟩,
    ⟨208150935158385979, 2, [2, 3, 11, 43, 127, 3023, 191039911]⟩,
    ⟨2624747550333869278416773953, 7,
      [2, 2, 2, 2, 2, 2, 3, 3, 1297, 16879, 208150935158385979]⟩,
    ⟨774023187263532362759620327192479577272145303, 3,
      [2, 3, 3, 2411, 34282281433, 11290956913871, 46076956964474543]⟩,
    ⟨835945042244614951780389953367877943453916927241, 11,
      [2, 2, 2, 3, 3, 3, 5, 774023187263532362759620327192479577272145303]⟩,
    ⟨groupOrder, 7, [2, 2, 2, 2, 3, 71, 131, 373, 3407, 17449, 38189, 187019741, 622491383,
      1002328039319, 2624747550333869278416773953]⟩,
    ⟨fieldPrime, 6, [2, 3, 5, 5, 17, 257, 641, 1531, 65537, 490463, 6700417,
      835945042244614951780389953367877943453916927241]⟩]

theorem prime_of_mem_primeSteps {p : ℕ} (h : p ∈ primeSteps.map LucasStep.number) : p.Prime := by
  have hsteps := @LucasStep.prime_of_allHold primeSteps smallPrimes prime_of_mem_smallPrimes
    (by decide +kernel)
  obtain ⟨s, hs, rfl⟩ := List.mem_map.1 h
  exact hsteps s hs

/-- **The field prime is prime.** -/
theorem prime_fieldPrime : fieldPrime.Prime :=
  prime_of_mem_primeSteps (by simp [primeSteps])

/-- **The group order is prime.** -/
theorem prime_groupOrder : groupOrder.Prime :=
  prime_of_mem_primeSteps (by simp [primeSteps])

instance : Fact fieldPrime.Prime :=
  ⟨prime_fieldPrime⟩

end Curve

end SealedChannel
