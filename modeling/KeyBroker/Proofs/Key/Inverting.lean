import KeyBroker.Proofs.Key.Undoing
import KeyBroker.Proofs.Key.Written
import Mathlib.FieldTheory.Finite.Basic
import Mathlib.NumberTheory.LucasPrimality

/-! # The private operation takes the public one back

  With two distinct primes the public operation has an inverse:

  - modulo a prime, a power that is one more than a multiple of the prime less one changes
    nothing (Fermat), so numbers with the same public power are the same modulo each factor;
  - the factors are coprime, so they are the same modulo the product.

  The private operation is this inverse, and answers every number below the modulus. It goes
  by the two factors:

  - modulo each factor it is a power, with an exponent reduced for the factor, which the
    public exponent undoes;
  - the two powers are put together to one number that is each of them modulo its factor;
  - so the public operation leads back modulo each factor, and modulo the product.

  The check that the private operation makes of its own result never fails then. A factor to
  hide the number behind goes in as its public power, which leads back to the factor, so it
  can be taken away again: the result is the same whatever was drawn.
-/

namespace KeyBroker

namespace Crypto

/-! ### Powers modulo a prime -/

/-- Modulo a prime, powers repeat with the prime less one. -/
theorem pow_modEq_self {p n : Nat} (hp : p.Prime) (hn : n % (p - 1) = 1) (x : Nat) :
    x ^ n ≡ x [MOD p] := by
  by_cases hdvd : p ∣ x
  · -- both sides are zero, as the power is not the zeroth
    have hpos : n ≠ 0 := by
      rintro rfl
      simp at hn
    have hzero : x ≡ 0 [MOD p] := (Nat.modEq_zero_iff_dvd).mpr hdvd
    calc x ^ n ≡ 0 ^ n [MOD p] := hzero.pow n
      _ = 0 := zero_pow hpos
      _ ≡ x [MOD p] := hzero.symm
  · -- by Fermat all factors go in groups of one less than the prime, and one factor is left
    have hcoprime : x.Coprime p := ((Nat.Prime.coprime_iff_not_dvd hp).mpr hdvd).symm
    have hfermat : x ^ (p - 1) ≡ 1 [MOD p] := Nat.ModEq.pow_card_sub_one_eq_one hp hcoprime
    have hsplit : n = (p - 1) * (n / (p - 1)) + 1 := by
      have hdiv := Nat.div_add_mod n (p - 1)
      omega
    calc x ^ n = (x ^ (p - 1)) ^ (n / (p - 1)) * x := by
          rw [← pow_mul, ← pow_succ, ← hsplit]
      _ ≡ 1 ^ (n / (p - 1)) * x [MOD p] := (hfermat.pow _).mul_right x
      _ = x := by rw [one_pow, one_mul]

/-- So a power with an exponent that can be undone tells numbers apart. -/
theorem modEq_of_pow_modEq {p d e x y : Nat} (hp : p.Prime) (hundo : d * e % (p - 1) = 1)
    (h : x ^ e ≡ y ^ e [MOD p]) : x ≡ y [MOD p] := by
  calc x ≡ x ^ (d * e) [MOD p] := (pow_modEq_self hp hundo x).symm
    _ = (x ^ e) ^ d := by rw [mul_comm, pow_mul]
    _ ≡ (y ^ e) ^ d [MOD p] := h.pow d
    _ = y ^ (d * e) := by rw [mul_comm, pow_mul]
    _ ≡ y [MOD p] := pow_modEq_self hp hundo y

/-- A number is prime if less one it has two prime factors, and some power runs through all
    remainders but zero: it comes to one in the end, and not at a part that leaves out one of
    the factors. -/
theorem prime_of_powMod {p a r i j : Nat} (hr : r.Prime) (hfactors : p - 1 = 2 ^ i * r ^ j)
    (hone : powMod p a (p - 1) = 1 % p) (htwo : powMod p a ((p - 1) / 2) ≠ 1 % p)
    (hpart : powMod p a ((p - 1) / r) ≠ 1 % p) : p.Prime := by
  have hcast : ∀ n, (a : ZMod p) ^ n = 1 ↔ powMod p a n = 1 % p := by
    intro n
    rw [powMod_eq, ← Nat.cast_pow, ← Nat.cast_one (R := ZMod p), ZMod.natCast_eq_natCast_iff']
    rfl
  apply lucas_primality p a ((hcast _).mpr hone)
  intro q hq hdvd
  rw [hfactors] at hdvd
  rw [Ne, hcast]
  rcases (Nat.Prime.dvd_mul hq).mp hdvd with hdvd | hdvd
  · have hsame : q = 2 := (Nat.prime_dvd_prime_iff_eq hq Nat.prime_two).mp
      (hq.dvd_of_dvd_pow hdvd)
    rw [hsame]
    exact htwo
  · have hsame : q = r := (Nat.prime_dvd_prime_iff_eq hq hr).mp (hq.dvd_of_dvd_pow hdvd)
    rw [hsame]
    exact hpart

/-! ### Remainders put together -/

/-- Two remainders put together: with an inverse of the second modulus modulo the first, the
    number is the one modulo the first and the other modulo the second. -/
theorem modEq_of_combined {p q inverse : Nat} (hp : 0 < p) (hinverse : q * inverse ≡ 1 [MOD p])
    (m₁ m₂ : Nat) :
    m₂ + (m₁ + (p - m₂ % p)) * inverse % p * q ≡ m₁ [MOD p]
      ∧ m₂ + (m₁ + (p - m₂ % p)) * inverse % p * q ≡ m₂ [MOD q] := by
  constructor
  · -- adding what is missing to the next multiple takes the second remainder away
    have hmissing : m₂ + (m₁ + (p - m₂ % p)) ≡ m₁ [MOD p] := by
      have hbelow := Nat.mod_lt m₂ hp
      have hsplit := Nat.div_add_mod m₂ p
      have hsum : m₂ + (m₁ + (p - m₂ % p)) = m₁ + p * (m₂ / p + 1) := by
        rw [Nat.mul_succ]
        omega
      rw [hsum]
      exact Nat.add_mul_mod_self_left m₁ p _
    calc m₂ + (m₁ + (p - m₂ % p)) * inverse % p * q
        ≡ m₂ + (m₁ + (p - m₂ % p)) * inverse * q [MOD p] :=
          ((Nat.mod_modEq _ _).mul_right q).add_left m₂
      _ = m₂ + (m₁ + (p - m₂ % p)) * (q * inverse) := by rw [mul_assoc, mul_comm inverse]
      _ ≡ m₂ + (m₁ + (p - m₂ % p)) * 1 [MOD p] := (hinverse.mul_left _).add_left m₂
      _ = m₂ + (m₁ + (p - m₂ % p)) := by rw [mul_one]
      _ ≡ m₁ [MOD p] := hmissing
  · exact Nat.add_mul_mod_self_right m₂ _ q

/-- An exponent that can be undone may be reduced by the prime less one. -/
theorem pow_pow_modEq_self {p d e : Nat} (hp : p.Prime) (hundo : d * e % (p - 1) = 1) (x : Nat) :
    (x ^ (d % (p - 1))) ^ e ≡ x [MOD p] := by
  have hreduced : d % (p - 1) * e % (p - 1) = 1 := by
    rw [Nat.mod_mul_mod, hundo]
  rw [← pow_mul]
  exact pow_modEq_self hp hreduced x

end Crypto

namespace KeyPair

variable {k : KeyPair}

/-! ### The public operation -/

theorem publicPower_lt (k : KeyPair) (m : Nat) : k.publicPower m < k.modulus := by
  rw [publicPower, Crypto.powMod_eq]
  exact Nat.mod_lt _ k.modulus_pos

theorem publicPower_modEq (k : KeyPair) (m : Nat) :
    k.publicPower m ≡ m ^ k.publicExponent [MOD k.modulus] := by
  rw [publicPower, Crypto.powMod_eq]
  exact Nat.mod_modEq _ _

/-- With two distinct primes, no two numbers below the modulus have the same public power. -/
theorem publicPower_inj (hp : k.prime₁.Prime) (hq : k.prime₂.Prime)
    (hdistinct : k.prime₁ ≠ k.prime₂) {x y : Nat} (hx : x < k.modulus) (hy : y < k.modulus)
    (hsame : k.publicPower x = k.publicPower y) : x = y := by
  obtain ⟨-, -, -, -, -, -, -, -, hfactors, hundo₁, hundo₂⟩ := k.valid
  have hpowers : x ^ k.publicExponent ≡ y ^ k.publicExponent [MOD k.prime₁ * k.prime₂] := by
    rw [publicPower, publicPower, Crypto.powMod_eq, Crypto.powMod_eq] at hsame
    rw [hfactors]
    exact hsame
  have hcoprime : k.prime₁.Coprime k.prime₂ := (Nat.coprime_primes hp hq).mpr hdistinct
  -- neither exponent is needed in full, it undoes the power modulo each factor on its own
  have hboth : x ≡ y [MOD k.prime₁ * k.prime₂] := by
    apply (Nat.modEq_and_modEq_iff_modEq_mul hcoprime).mp
    constructor
    · exact Crypto.modEq_of_pow_modEq hp hundo₁ (hpowers.of_mul_right _)
    · exact Crypto.modEq_of_pow_modEq hq hundo₂ (hpowers.of_mul_left _)
  rw [hfactors] at hboth
  exact hboth.eq_of_lt_of_lt hx hy

/-! ### The private operation -/

/-- By coprime factors, a private operation is a power modulo each of them. -/
theorem privatePower_modEq (hcoprime : k.prime₁.Coprime k.prime₂) (c : Nat) :
    k.privatePower c ≡ c ^ k.exponent₁ [MOD k.prime₁]
      ∧ k.privatePower c ≡ c ^ k.exponent₂ [MOD k.prime₂] := by
  obtain ⟨-, -, -, -, -, -, hp, -⟩ := k.valid
  obtain ⟨coefficient, hcoefficient⟩ := exists_coefficient_iff.mpr hcoprime
  have hpos : 0 < k.prime₁ := Nat.lt_of_lt_of_le (by decide) hp
  have hinverse : k.prime₂ * coefficient ≡ 1 [MOD k.prime₁] :=
    Crypto.mul_of_inverse? hpos hcoefficient
  obtain ⟨hfirst, hsecond⟩ := Crypto.modEq_of_combined hpos hinverse
    (Crypto.powMod k.prime₁ c k.exponent₁) (Crypto.powMod k.prime₂ c k.exponent₂)
  simp only [privatePower, hcoefficient]
  refine ⟨hfirst.trans ?_, hsecond.trans ?_⟩
  · rw [Crypto.powMod_eq]
    exact Nat.mod_modEq _ _
  · rw [Crypto.powMod_eq]
    exact Nat.mod_modEq _ _

/-- A factor that hides a number is taken away by the number that comes with it. -/
theorem blinding_modEq (k : KeyPair) (drawn : Nat) :
    (k.blinding drawn).1 * (k.blinding drawn).2 ≡ 1 [MOD k.modulus] := by
  unfold blinding
  cases hinverse : Crypto.inverse? k.modulus (drawn % k.modulus) with
  | none => exact Nat.ModEq.refl 1
  | some inverse => exact Crypto.mul_of_inverse? k.modulus_pos hinverse

section Primes

variable (hp : k.prime₁.Prime) (hq : k.prime₂.Prime) (hdistinct : k.prime₁ ≠ k.prime₂)

include hp hq hdistinct

/-- The public operation leads back from what the private one gives. -/
theorem publicPower_privatePower {c : Nat} (hc : c < k.modulus) :
    k.publicPower (k.privatePower c) = c := by
  obtain ⟨-, -, -, -, -, -, -, -, hfactors, hundo₁, hundo₂⟩ := k.valid
  have hcoprime : k.prime₁.Coprime k.prime₂ := (Nat.coprime_primes hp hq).mpr hdistinct
  obtain ⟨hfirst, hsecond⟩ := privatePower_modEq hcoprime c
  have hback : k.privatePower c ^ k.publicExponent ≡ c [MOD k.prime₁ * k.prime₂] := by
    apply (Nat.modEq_and_modEq_iff_modEq_mul hcoprime).mp
    constructor
    · exact (hfirst.pow _).trans (Crypto.pow_pow_modEq_self hp hundo₁ c)
    · exact (hsecond.pow _).trans (Crypto.pow_pow_modEq_self hq hundo₂ c)
  rw [hfactors] at hback
  rw [publicPower, Crypto.powMod_eq]
  exact Nat.mod_eq_of_modEq hback hc

/-- So the private operation answers every number in range. -/
theorem undo_eq {c : Nat} (hc : c < k.modulus) : k.undo c = .ok (k.privatePower c) := by
  have hback := publicPower_privatePower hp hq hdistinct hc
  exact checked_eq_ok_iff.mpr ⟨hc, hback, rfl⟩

/-- And it takes the public operation back. -/
theorem undo_publicPower {m : Nat} (hm : m < k.modulus) : k.undo (k.publicPower m) = .ok m := by
  have hpower := k.publicPower_lt m
  have hsame : k.privatePower (k.publicPower m) = m := by
    apply publicPower_inj hp hq hdistinct (k.privatePower_lt _) hm
    exact publicPower_privatePower hp hq hdistinct hpower
  rw [undo_eq hp hq hdistinct hpower, hsame]

/-- The public operation leads back from what was hidden, too: the public power of the factor
    goes in, so the factor comes out. -/
theorem publicPower_blindPower {c : Nat} (hc : c < k.modulus) (drawn : Nat) :
    k.publicPower (k.blindPower drawn c) = c := by
  have hcancel := k.blinding_modEq drawn
  rcases hdrawn : k.blinding drawn with ⟨factor, inverse⟩
  rw [hdrawn] at hcancel
  let hidden := c * k.publicPower factor % k.modulus
  have hresult : k.blindPower drawn c = k.privatePower hidden * inverse % k.modulus := by
    rw [blindPower, hdrawn]
  have hhidden : k.publicPower (k.privatePower hidden) = hidden :=
    publicPower_privatePower hp hq hdistinct (Nat.mod_lt _ k.modulus_pos)
  have hback : k.publicPower (k.blindPower drawn c) ≡ c [MOD k.modulus] := by
    calc k.publicPower (k.blindPower drawn c)
        ≡ (k.blindPower drawn c) ^ k.publicExponent [MOD k.modulus] := k.publicPower_modEq _
      _ ≡ (k.privatePower hidden * inverse) ^ k.publicExponent [MOD k.modulus] := by
          rw [hresult]
          exact (Nat.mod_modEq _ _).pow _
      _ = k.privatePower hidden ^ k.publicExponent * inverse ^ k.publicExponent := mul_pow ..
      _ ≡ hidden * inverse ^ k.publicExponent [MOD k.modulus] := by
          refine Nat.ModEq.mul_right _ ?_
          exact (k.publicPower_modEq _).symm.trans (by rw [hhidden])
      _ ≡ c * factor ^ k.publicExponent * inverse ^ k.publicExponent [MOD k.modulus] := by
          refine Nat.ModEq.mul_right _ ?_
          exact (Nat.mod_modEq _ _).trans ((k.publicPower_modEq factor).mul_left c)
      _ = c * (factor * inverse) ^ k.publicExponent := by rw [mul_assoc, ← mul_pow]
      _ ≡ c * 1 ^ k.publicExponent [MOD k.modulus] := (hcancel.pow _).mul_left c
      _ = c := by rw [one_pow, mul_one]
  exact hback.eq_of_lt_of_lt (k.publicPower_lt _) hc

/-- So what was drawn makes no difference to what the private operation works out. -/
theorem blindPower_eq {c : Nat} (hc : c < k.modulus) (drawn : Nat) :
    k.blindPower drawn c = k.privatePower c := by
  apply publicPower_inj hp hq hdistinct (k.blindPower_lt drawn c) (k.privatePower_lt c)
  rw [publicPower_blindPower hp hq hdistinct hc, publicPower_privatePower hp hq hdistinct hc]

end Primes

end KeyPair

end KeyBroker
