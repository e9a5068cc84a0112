/-! # Powers and inverses modulo a number

Main statements: `powMod` computes the power, reduced, and `inverse?` finds an inverse exactly for
numbers coprime to the modulus.
-/

namespace KeyBroker.Crypto

/-- The power of a number modulo `m`, by repeated squaring. -/
def powMod (m base exponent : Nat) : Nat :=
  if exponent = 0 then 1 % m
  else
    let half := powMod m (base * base % m) (exponent / 2)
    if exponent % 2 = 0 then half else base * half % m
termination_by exponent

/-- An inverse of `a` modulo `m`, for `a` coprime to `m`. With an inverse `y` of `m % a` modulo `a`
at hand, `1 + m * (a - y)` is a multiple of `a`, and the quotient is an inverse. -/
def coprimeInverse (m a : Nat) : Nat :=
  if _ : a ≤ 1 then a else (1 + m * (a - coprimeInverse a (m % a))) / a
termination_by a
decreasing_by exact Nat.mod_lt _ (by omega)

/-- The inverse of `a` modulo `m` below `m`. -/
def inverse? (m a : Nat) : Option Nat :=
  if a.gcd m = 1 then some (coprimeInverse m (a % m) % m) else none

theorem powMod_eq (m base exponent : Nat) : powMod m base exponent = Nat.pow base exponent % m := by
  rw [Nat.pow_eq]
  induction exponent using Nat.strongRecOn generalizing base with
  | ind e ih =>
    rw [powMod]
    by_cases h : e = 0
    · simp [h]
    · have half : powMod m (base * base % m) (e / 2) = (base ^ 2) ^ (e / 2) % m := by
        rw [ih (e / 2) (by omega), ← Nat.pow_mod, Nat.pow_two]
      have whole : e = 2 * (e / 2) + e % 2 := by omega
      simp only [h, if_false, half]
      by_cases even : e % 2 = 0
      · rw [if_pos even, ← Nat.pow_mul, show 2 * (e / 2) = e by omega]
      · rw [if_neg even, Nat.mul_mod_mod, ← Nat.pow_mul, Nat.mul_comm, ← Nat.pow_succ,
          show (2 * (e / 2)).succ = e by omega]

theorem mod_pos_of_coprime {m a : Nat} (many : 1 < a) (coprime : a.gcd m = 1) : 0 < m % a := by
  rcases Nat.eq_zero_or_pos (m % a) with zero | pos
  · have : a.gcd m = a := Nat.gcd_eq_left (Nat.dvd_of_mod_eq_zero zero)
    omega
  · exact pos

/-- The number that `coprimeInverse` gives is positive and at most the modulus, and its product with
`a` is one more than a multiple of the modulus. -/
theorem coprimeInverse_spec {m a : Nat} (large : 0 < m) (pos : 0 < a) (coprime : a.gcd m = 1) :
    0 < coprimeInverse m a ∧ coprimeInverse m a ≤ m
      ∧ ∃ q, a * coprimeInverse m a = 1 + m * q := by
  induction a using Nat.strongRecOn generalizing m with
  | ind a ih =>
    by_cases one : a = 1
    · subst one
      rw [coprimeInverse, dif_pos (Nat.le_refl 1)]
      exact ⟨Nat.one_pos, large, 0, rfl⟩
    · have rest := mod_pos_of_coprime (by omega) coprime
      have below : m % a < a := Nat.mod_lt _ pos
      obtain ⟨inner, upper, q, product⟩ :=
        ih (m % a) below pos rest (by rw [← Nat.gcd_rec]; exact coprime)
      have step : coprimeInverse m a = (1 + m * (a - coprimeInverse a (m % a))) / a := by
        rw [coprimeInverse, dif_neg (by omega)]
      generalize coprimeInverse a (m % a) = y at inner upper product step
      -- `m * y` is one more than a multiple of `a`, so `1 + m * (a - y)` is a multiple of `a`
      have multiple : m * y = a * (m / a * y + q) + 1 := by
        calc m * y = (a * (m / a) + m % a) * y := by rw [Nat.div_add_mod]
          _ = a * (m / a) * y + m % a * y := Nat.add_mul _ _ _
          _ = a * (m / a * y) + (1 + a * q) := by rw [Nat.mul_assoc, product]
          _ = a * (m / a * y + q) + 1 := by rw [Nat.mul_add]; omega
      have bounded : m * y ≤ m * a := Nat.mul_le_mul_left m upper
      have whole : 1 + m * (a - y) = a * (m - (m / a * y + q)) := by
        rw [Nat.mul_sub, Nat.mul_sub, Nat.mul_comm a m]
        omega
      have value : coprimeInverse m a = m - (m / a * y + q) := by
        rw [step, whole, Nat.mul_div_cancel_left _ pos]
      rw [value, ← whole]
      refine ⟨?_, Nat.sub_le _ _, a - y, rfl⟩
      rcases Nat.eq_zero_or_pos (m - (m / a * y + q)) with zero | positive
      · rw [zero] at whole
        omega
      · exact positive

theorem mul_of_inverse? {m a x : Nat} (large : 0 < m) (h : inverse? m a = some x) :
    a * x % m = 1 % m := by
  unfold inverse? at h
  split at h
  · next coprime =>
    cases h
    rw [Nat.mul_mod_mod, ← Nat.mod_mul_mod]
    rcases Nat.eq_zero_or_pos (a % m) with zero | pos
    · have : m = 1 := by
        have divides : m ∣ a := Nat.dvd_of_mod_eq_zero zero
        rw [Nat.gcd_eq_right divides] at coprime
        exact coprime
      subst this
      simp [Nat.mod_one]
    · have reduced : (a % m).gcd m = 1 := by
        rw [← Nat.gcd_rec, Nat.gcd_comm]
        exact coprime
      obtain ⟨_, _, q, product⟩ := coprimeInverse_spec large pos reduced
      rw [product, Nat.add_mul_mod_self_left]
  · cases h

theorem inverse?_isSome (m a : Nat) : (inverse? m a).isSome = true ↔ a.gcd m = 1 := by
  unfold inverse?
  split <;> simp_all

end KeyBroker.Crypto
