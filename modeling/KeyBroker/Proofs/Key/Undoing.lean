import KeyBroker.Operation

/-! # What an operation gives, its counterpart takes

  Whatever was sealed under a secret opens under it again, and whatever was signed with a key
  pair verifies with it. For key pairs nothing is assumed of the two factors, nor of what was
  drawn to hide the number. The factors need not be primes, because a private operation checks
  its result by the public one and gives nothing that does not lead back.
-/

namespace KeyBroker

/-! ### Under a secret -/

/-- What was sealed opens again. -/
theorem openWith_of_sealWith {secret message box : Bytes} {nonce : Vector UInt8 12}
    (h : sealWith secret nonce message = .ok box) : openWith secret box = .ok message := by
  unfold sealWith at h
  split at h
  · cases h
  · next hsized =>
    split at h
    · cases h
    · obtain rfl := Except.ok.inj h
      have hnonce : nonce.toList.length = Crypto.Gcm.nonceSize := nonce.length_toList
      have hlength := Crypto.Gcm.length_sealed secret nonce.toList message
      have hlong : ¬ (Crypto.Gcm.sealed secret nonce.toList message).length
          < Crypto.Gcm.nonceSize + Crypto.Gcm.tagSize := by omega
      unfold openWith
      rw [if_neg hsized, if_neg hlong, Crypto.Gcm.opened?_sealed secret message hnonce]

/-! ### Under a key pair -/

/-- A signature padding fills the length that it is made for. -/
theorem Crypto.length_of_signaturePad {h : Hash} {size : Nat} {message padded : Bytes}
    (hpad : signaturePad h size message = some padded) : padded.length = size := by
  unfold signaturePad at hpad
  simp only at hpad
  split at hpad
  · cases hpad
  · next hroom =>
    obtain rfl := Option.some.inj hpad
    simp only [List.length_append, List.length_cons, List.length_replicate] at hroom ⊢
    omega

namespace KeyPair

variable {k : KeyPair} {h : Hash}

theorem modulus_pos (k : KeyPair) : 0 < k.modulus := by
  obtain ⟨-, hodd, -⟩ := k.valid
  omega

/-- The modulus is below what its length in bytes can hold. -/
theorem modulus_lt (k : KeyPair) : k.modulus < 1 <<< (8 * k.size) := by
  have hbits : k.modulus.log2 + 1 ≤ 8 * k.size := by
    rw [size]
    omega
  rw [Nat.one_shiftLeft]
  exact Nat.lt_of_lt_of_le Nat.lt_log2_self (Nat.pow_le_pow_right (by decide) hbits)

/-- A number below the modulus is read from bytes of its length. -/
theorem toNatBE_ofNatBE_of_lt {n : Nat} (h : n < k.modulus) :
    Bytes.toNatBE (Bytes.ofNatBE k.size n) = n := by
  rw [Bytes.toNatBE_ofNatBE]
  exact Nat.mod_eq_of_lt (Nat.lt_trans h k.modulus_lt)

/-- A private operation stays below the modulus, also when it goes by the two factors. -/
theorem privatePower_lt (k : KeyPair) (c : Nat) : k.privatePower c < k.modulus := by
  obtain ⟨-, -, -, -, -, -, hp, hq, hfactors, -⟩ := k.valid
  unfold privatePower
  split
  · next q' _ =>
    -- the result is a remainder of the second factor and fewer multiples of it than the first
    dsimp only
    have hrest : Crypto.powMod k.prime₂ c k.exponent₂ < k.prime₂ := by
      rw [Crypto.powMod_eq]
      exact Nat.mod_lt _ (by omega)
    generalize Crypto.powMod k.prime₂ c k.exponent₂ = m₂ at hrest ⊢
    have hfewer : (Crypto.powMod k.prime₁ c k.exponent₁ + (k.prime₁ - m₂ % k.prime₁)) * q'
        % k.prime₁ < k.prime₁ := Nat.mod_lt _ (by omega)
    generalize (Crypto.powMod k.prime₁ c k.exponent₁ + (k.prime₁ - m₂ % k.prime₁)) * q'
      % k.prime₁ = n at hfewer ⊢
    calc m₂ + n * k.prime₂ < k.prime₂ + n * k.prime₂ := Nat.add_lt_add_right hrest _
      _ = (n + 1) * k.prime₂ := by rw [Nat.succ_mul, Nat.add_comm]
      _ ≤ k.prime₁ * k.prime₂ := Nat.mul_le_mul_right _ hfewer
      _ = k.modulus := hfactors
  · rw [Crypto.powMod_eq]
    exact Nat.mod_lt _ k.modulus_pos

/-- So does one that is hidden behind a factor. -/
theorem blindPower_lt (k : KeyPair) (drawn c : Nat) : k.blindPower drawn c < k.modulus :=
  Nat.mod_lt _ k.modulus_pos

/-- A signature is the number that the private operation worked out, whatever was drawn for it,
    and that number leads back to the padded digest. -/
theorem sign_eq_ok_iff {drawn : Nat} {message signature : Bytes} :
    k.sign h drawn message = .ok signature
      ↔ ∃ padded, Crypto.signaturePad h k.size message = some padded
          ∧ Bytes.toNatBE padded < k.modulus
          ∧ k.publicPower (k.blindPower drawn (Bytes.toNatBE padded)) = Bytes.toNatBE padded
          ∧ signature = Bytes.ofNatBE k.size (k.blindPower drawn (Bytes.toNatBE padded)) := by
  unfold sign
  constructor
  · intro hsign
    split at hsign
    · cases hsign
    · next padded hpad =>
      split at hsign
      · next s hundo =>
        obtain ⟨hbelow, hback, rfl⟩ := checked_eq_ok_iff.mp hundo
        exact ⟨padded, hpad, hbelow, hback, (Except.ok.inj hsign).symm⟩
      · cases hsign
  · rintro ⟨padded, hpad, hbelow, hback, rfl⟩
    have hundo : k.undoBlind drawn (Bytes.toNatBE padded)
        = .ok (k.blindPower drawn (Bytes.toNatBE padded)) :=
      checked_eq_ok_iff.mpr ⟨hbelow, hback, rfl⟩
    simp only [hpad, hundo]

/-- What was signed verifies. -/
theorem verify_of_sign {drawn : Nat} {message signature : Bytes}
    (hsign : k.sign h drawn message = .ok signature) : k.verify h message signature = true := by
  obtain ⟨padded, hpad, -, hback, rfl⟩ := sign_eq_ok_iff.mp hsign
  have hbelow := k.blindPower_lt drawn (Bytes.toNatBE padded)
  -- the number in the signature is the one that the private operation gave
  have hnumber := toNatBE_ofNatBE_of_lt hbelow
  have hdigits : Bytes.ofNatBE k.size (Bytes.toNatBE padded) = padded := by
    rw [← Crypto.length_of_signaturePad hpad]
    exact Bytes.ofNatBE_toNatBE padded
  simp only [verify, hnumber, hback, hdigits, hpad, Bytes.length_ofNatBE, hbelow,
    beq_self_eq_true, decide_true, Bool.and_self]

end KeyPair

/-! ### Under any key -/

namespace Operation

variable {p : Primitive} {key : KeyMaterial} {draw : Draw} {message given : Bytes}
  {aux : Option Bytes}

/-- An operation gives the bytes that its algorithm gives. -/
theorem ok_of_algorithm {x : Except AlgorithmFault Bytes}
    (h : (x.mapError KeyFault.algorithm).map Outcome.bytes = .ok (.bytes given)) :
    x = .ok given := by
  cases x with
  | error cause => cases h
  | ok b =>
    cases h
    rfl

/-- What was encrypted under a secret is decrypted under it. -/
theorem run_decrypt_of_run_encrypt {secret : Bytes} (redraw : Draw) (other : Option Bytes)
    (h : encrypt.run p (.secret secret) draw message aux = .ok (.bytes given)) :
    decrypt.run p (.secret secret) redraw given other = .ok (.bytes message) := by
  cases p with
  | cipher c =>
    cases c with
    | standard =>
      have hseal : sealWith secret draw.nonce message = .ok given := ok_of_algorithm h
      show ((openWith secret given).mapError KeyFault.algorithm).map Outcome.bytes = _
      rw [openWith_of_sealWith hseal]
      rfl
    | oaep hash => cases h
  | mac hash => cases h
  | signature hash => cases h

/-- What was signed verifies with the same primitive. -/
theorem run_verify_of_run_sign (redraw : Draw)
    (h : sign.run p key draw message aux = .ok (.bytes given)) :
    verify.run p key redraw message (some given) = .ok (.verdict true) := by
  cases p with
  | signature hash =>
    cases key with
    | secret bytes => cases h
    | pair k =>
      have hsign : k.sign hash draw.blinding message = .ok given := ok_of_algorithm h
      rw [run_verify_pair, Option.getD_some, KeyPair.verify_of_sign hsign]
  | cipher c => cases h
  | mac hash => cases h

end Operation

end KeyBroker
