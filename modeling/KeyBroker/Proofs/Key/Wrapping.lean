import KeyBroker.Proofs.Key.Inverting
import KeyBroker.Proofs.Key.Padding
import KeyBroker.Proofs.Key.Sealing

/-! # What a key pair wraps, it unwraps

  A message is padded to the length of the modulus, and the number that the padded bytes stand
  for is raised to the public power. Three passages are undone one by one: the private
  operation takes the power back, bytes of the length of the modulus are those of their
  number, and unpadding finds the message.

  There is room for a message that leaves two digests and two bytes free. A modulus that is
  shorter than these has no room for any message, and nothing unwraps under it.
-/

namespace KeyBroker

namespace KeyPair

variable {k : KeyPair} {h : Hash} {message ciphertext : Bytes}

/-- The part of a seed that is used is as long as a digest. -/
theorem length_take_seed (h : Hash) (seed : Vector UInt8 64) :
    (seed.toList.take h.size).length = h.size := by
  have hshort : h.size ≤ 64 := by
    cases h <;> decide
  rw [List.length_take, Vector.length_toList]
  exact Nat.min_eq_left hshort

theorem encrypt_of_long (seed : Vector UInt8 64)
    (hlong : k.size < message.length + Crypto.oaepOverhead h) :
    k.encrypt h seed message = .error .oaepTooLong := by
  unfold encrypt
  rw [if_pos hlong]

/-- A message for which there is room is wrapped in as many bytes as the modulus has. -/
theorem encrypt_eq_ok_iff {seed : Vector UInt8 64} :
    k.encrypt h seed message = .ok ciphertext
      ↔ message.length + Crypto.oaepOverhead h ≤ k.size
        ∧ ciphertext = Bytes.ofNatBE k.size (k.publicPower (Bytes.toNatBE
            (Crypto.oaepPad h k.size (seed.toList.take h.size) message))) := by
  unfold encrypt
  split
  · next hlong => exact ⟨nofun, fun hfits => absurd hfits.1 (Nat.not_le.mpr hlong)⟩
  · next hfits =>
    constructor
    · intro hwrapped
      exact ⟨Nat.not_lt.mp hfits, (Except.ok.inj hwrapped).symm⟩
    · rintro ⟨-, rfl⟩
      rfl

/-- With two distinct primes, what was wrapped is unwrapped. -/
theorem decrypt_of_encrypt (hp : k.prime₁.Prime) (hq : k.prime₂.Prime)
    (hdistinct : k.prime₁ ≠ k.prime₂) {seed : Vector UInt8 64}
    (hwrapped : k.encrypt h seed message = .ok ciphertext) :
    ciphertext.length = k.size ∧ k.decrypt h ciphertext = .ok message := by
  obtain ⟨hfits, rfl⟩ := encrypt_eq_ok_iff.mp hwrapped
  have hseed := length_take_seed h seed
  obtain ⟨rest, hpad, hlength⟩ := Crypto.exists_oaepPad hseed hfits
  have hbelow := k.toNatBE_oaepPad_lt hseed hfits
  have hunpad : Crypto.oaepUnpad h
      (Crypto.oaepPad h k.size (seed.toList.take h.size) message) = some message :=
    Crypto.oaepUnpad_oaepPad hseed
  generalize Crypto.oaepPad h k.size (seed.toList.take h.size) message = padded
    at hpad hbelow hunpad ⊢
  -- the number in the ciphertext is the public power
  have hnumber : Bytes.toNatBE (Bytes.ofNatBE k.size (k.publicPower (Bytes.toNatBE padded)))
      = k.publicPower (Bytes.toNatBE padded) := toNatBE_ofNatBE_of_lt (k.publicPower_lt _)
  have hundo := undo_publicPower hp hq hdistinct hbelow
  -- and what comes out of the private operation has the digits of the padded bytes
  have hdigits : Bytes.ofNatBE k.size (Bytes.toNatBE padded) = padded := by
    have hfull : padded.length = k.size := by rw [hpad, List.length_cons, hlength]
    rw [← hfull, Bytes.ofNatBE_toNatBE]
  refine ⟨Bytes.length_ofNatBE _ _, ?_⟩
  unfold decrypt
  rw [if_neg (not_not.mpr (Bytes.length_ofNatBE _ _)), hnumber, hundo]
  simp only [hdigits, hunpad]

/-- Under a modulus that is shorter than the padding of nothing, nothing is unwrapped. -/
theorem decrypt_of_small (hsmall : k.size < Crypto.oaepOverhead h) (ciphertext : Bytes) :
    ∃ cause, k.decrypt h ciphertext = .error cause := by
  have hnone : ∀ m, Crypto.oaepUnpad h (Bytes.ofNatBE k.size m) = none := by
    intro m
    apply Crypto.oaepUnpad_of_short
    rw [Bytes.length_ofNatBE]
    exact hsmall
  -- what passes the checks before has no padding that could be taken away
  unfold decrypt
  split
  · exact ⟨_, rfl⟩
  split
  · exact ⟨_, rfl⟩
  · exact ⟨_, rfl⟩
  · next m _ =>
    rw [hnone m]
    exact ⟨_, rfl⟩

end KeyPair

/-! ### Under any key -/

namespace Operation

variable {k : KeyPair} {h : Hash} {draw : Draw} {message ciphertext : Bytes}

theorem encryptUnder_oaep_eq_ok_iff :
    encryptUnder (.pair k) (.oaep h) draw message = .ok ciphertext
      ↔ k.encrypt h draw.seed message = .ok ciphertext := mapError_eq_ok_iff

theorem decryptUnder_oaep_eq_ok_iff :
    decryptUnder (.pair k) (.oaep h) ciphertext = .ok message
      ↔ k.decrypt h ciphertext = .ok message := mapError_eq_ok_iff

theorem encryptUnder_oaep_of_error {cause : AlgorithmFault}
    (hfault : k.encrypt h draw.seed message = .error cause) :
    encryptUnder (.pair k) (.oaep h) draw message = .error (.algorithm cause) := by
  show (k.encrypt h draw.seed message).mapError KeyFault.algorithm = _
  rw [hfault]
  rfl

theorem decryptUnder_oaep_of_error {cause : AlgorithmFault}
    (hfault : k.decrypt h ciphertext = .error cause) :
    decryptUnder (.pair k) (.oaep h) ciphertext = .error (.algorithm cause) := by
  show (k.decrypt h ciphertext).mapError KeyFault.algorithm = _
  rw [hfault]
  rfl

/-- Under a key pair the standard cipher is the one with the shortest digest. -/
theorem encryptUnder_standard (k : KeyPair) (draw : Draw) (message : Bytes) :
    encryptUnder (.pair k) .standard draw message
      = encryptUnder (.pair k) (.oaep .sha1) draw message := rfl

theorem decryptUnder_standard (k : KeyPair) (ciphertext : Bytes) :
    decryptUnder (.pair k) .standard ciphertext
      = decryptUnder (.pair k) (.oaep .sha1) ciphertext := rfl

/-- A key pair with two distinct primes wraps exactly the messages that leave two digests and
    two bytes of the length of its modulus free. Whatever is drawn, a ciphertext has the
    length of the modulus and unwraps to the message. Other messages are refused as too long,
    and a modulus without room for the digests refuses all and unwraps nothing. The standard
    cipher and the one with SHA-1 open each other's ciphertexts. -/
theorem wraps_exactly_what_fits {k : KeyPair} (hp : k.prime₁.Prime) (hq : k.prime₂.Prime)
    (hdistinct : k.prime₁ ≠ k.prime₂) :
    (∀ (h : Hash) (draw : Draw) (message : Bytes),
      ((∃ ciphertext, encryptUnder (.pair k) (.oaep h) draw message = .ok ciphertext)
          ↔ message.length + 2 * h.size + 2 ≤ k.size)
      ∧ (∀ ciphertext, encryptUnder (.pair k) (.oaep h) draw message = .ok ciphertext →
          ciphertext.length = k.size
            ∧ decryptUnder (.pair k) (.oaep h) ciphertext = .ok message)
      ∧ (k.size < message.length + 2 * h.size + 2 →
          encryptUnder (.pair k) (.oaep h) draw message = .error (.algorithm .oaepTooLong)))
    ∧ (∀ h : Hash, k.size < 2 * h.size + 2 →
      (∀ draw message,
        encryptUnder (.pair k) (.oaep h) draw message = .error (.algorithm .oaepTooLong))
      ∧ ∀ ciphertext, ∃ cause,
        decryptUnder (.pair k) (.oaep h) ciphertext = .error (.algorithm cause))
    ∧ ∀ (draw : Draw) (message ciphertext : Bytes),
      (encryptUnder (.pair k) .standard draw message = .ok ciphertext →
        decryptUnder (.pair k) (.oaep .sha1) ciphertext = .ok message)
      ∧ (encryptUnder (.pair k) (.oaep .sha1) draw message = .ok ciphertext →
        decryptUnder (.pair k) .standard ciphertext = .ok message) := by
  have hopens : ∀ (h : Hash) (draw : Draw) (message ciphertext : Bytes),
      encryptUnder (.pair k) (.oaep h) draw message = .ok ciphertext →
      ciphertext.length = k.size ∧ decryptUnder (.pair k) (.oaep h) ciphertext = .ok message := by
    intro h draw message ciphertext hwrapped
    obtain ⟨hlength, hopen⟩ := KeyPair.decrypt_of_encrypt hp hq hdistinct
      (encryptUnder_oaep_eq_ok_iff.mp hwrapped)
    exact ⟨hlength, decryptUnder_oaep_eq_ok_iff.mpr hopen⟩
  refine ⟨?_, ?_, ?_⟩
  · intro h draw message
    refine ⟨⟨?_, ?_⟩, hopens h draw message, ?_⟩
    · rintro ⟨ciphertext, hwrapped⟩
      exact (KeyPair.encrypt_eq_ok_iff.mp (encryptUnder_oaep_eq_ok_iff.mp hwrapped)).1
    · intro hfits
      exact ⟨_, encryptUnder_oaep_eq_ok_iff.mpr (KeyPair.encrypt_eq_ok_iff.mpr ⟨hfits, rfl⟩)⟩
    · intro hlong
      exact encryptUnder_oaep_of_error (KeyPair.encrypt_of_long draw.seed hlong)
  · intro h hsmall
    refine ⟨?_, ?_⟩
    · -- not even the empty message finds room
      intro draw message
      have hlong : k.size < message.length + (2 * h.size + 2) := by omega
      exact encryptUnder_oaep_of_error (KeyPair.encrypt_of_long draw.seed hlong)
    · intro ciphertext
      obtain ⟨cause, hfault⟩ := KeyPair.decrypt_of_small hsmall ciphertext
      exact ⟨cause, decryptUnder_oaep_of_error hfault⟩
  · intro draw message ciphertext
    rw [encryptUnder_standard, decryptUnder_standard]
    exact ⟨fun hwrapped => (hopens _ _ _ _ hwrapped).2, fun hwrapped => (hopens _ _ _ _ hwrapped).2⟩

/-- A pair of 45 bytes: there is room for three bytes under SHA-1, not for four, and for
    nothing under SHA-256. -/
theorem wraps_exactly_what_fits_to_the_last_byte :
    let p := (3 <<< 189) + 1
    let q := (9 <<< 162) + 1
    let pair : KeyPair :=
      ⟨⟨p * q, 5, (4 * (p - 1) * (q - 1) + 1) / 5, p, q⟩, by decide +kernel⟩
    let draw : Draw := ⟨Vector.replicate 12 0, Vector.replicate 64 9, 1⟩
    p.Prime ∧ q.Prime ∧ p ≠ q
      ∧ (∃ ciphertext,
        encryptUnder (.pair pair) .standard draw [1, 2, 3] = .ok ciphertext
          ∧ ciphertext.length = 45
          ∧ decryptUnder (.pair pair) (.oaep .sha1) ciphertext = .ok [1, 2, 3])
      ∧ encryptUnder (.pair pair) (.oaep .sha1) draw [1, 2, 3, 4]
          = .error (.algorithm .oaepTooLong)
      ∧ encryptUnder (.pair pair) (.oaep .sha256) draw [] = .error (.algorithm .oaepTooLong) := by
  intro p q pair draw
  have hp : p.Prime := by
    apply Crypto.prime_of_powMod (a := 10) (r := 3) (i := 189) (j := 1) <;> decide +kernel
  have hq : q.Prime := by
    apply Crypto.prime_of_powMod (a := 5) (r := 3) (i := 162) (j := 2) <;> decide +kernel
  have hdistinct : p ≠ q := by decide +kernel
  have hsize : pair.size = 45 := by decide +kernel
  obtain ⟨hwraps, hsmall, hshared⟩ := wraps_exactly_what_fits (k := pair) hp hq hdistinct
  obtain ⟨hroom, hopens, -⟩ := hwraps .sha1 draw [1, 2, 3]
  obtain ⟨ciphertext, hwrapped⟩ := hroom.mpr (by rw [hsize]; decide)
  have hlength := (hopens ciphertext hwrapped).1.trans hsize
  refine ⟨hp, hq, hdistinct, ⟨ciphertext, hwrapped, hlength, ?_⟩, ?_, ?_⟩
  · exact (hshared draw [1, 2, 3] ciphertext).1 hwrapped
  · exact (hwraps .sha1 draw [1, 2, 3, 4]).2.2 (by rw [hsize]; decide)
  · exact (hsmall .sha256 (by rw [hsize]; decide)).1 draw []

end Operation

end KeyBroker
