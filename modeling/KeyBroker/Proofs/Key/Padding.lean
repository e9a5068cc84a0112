import KeyBroker.Proofs.Key.Undoing
import KeyBroker.Proofs.Key.Written

/-! # Padding a message and taking the padding away

  Padding masks twice, first the block with the message by what is grown from the seed, then
  the seed by what is grown from the masked block. Whoever has the result can grow the second
  mask at once, and with the seed that comes out the first one. So unpadding sees the block as
  it was, and finds the message behind the filling.

  Padded bytes have the length of the modulus and begin with a zero, so the number that they
  stand for is below the modulus.
-/

namespace KeyBroker

/-- The number of digits bounds the number. -/
theorem Bytes.toNatBE_lt (b : Bytes) : Bytes.toNatBE b < 1 <<< (8 * b.length) := by
  rw [Bytes.toNatBE, ← List.length_reverse]
  exact Bytes.toNatLE_lt b.reverse

namespace Crypto

variable {h : Hash} {size : Nat} {seed block message : Bytes}

/-! ### Masks -/

theorem size_pos (h : Hash) : 0 < h.size := by
  cases h <;> decide

/-- A mask has the length that is asked for. -/
theorem length_growMask (h : Hash) (seed : Bytes) (size : Nat) :
    (growMask h seed size).length = size := by
  -- there are as many digests as it takes, the last one is cut
  have hpos := size_pos h
  have henough : size ≤ (size + h.size - 1) / h.size * h.size := by
    have hrest := Nat.div_add_mod (size + h.size - 1) h.size
    have hbelow := Nat.mod_lt (size + h.size - 1) hpos
    rw [Nat.mul_comm] at hrest
    omega
  unfold growMask
  rw [List.length_take, List.length_flatMap]
  simp only [Hash.length_digest, List.map_const', List.length_range, List.sum_replicate_nat]
  exact Nat.min_eq_left henough

/-- A mask of the same length covers all. -/
theorem length_xor_growMask (b : Bytes) (seed : Bytes) :
    (Bytes.xor b (growMask h seed b.length)).length = b.length := by
  rw [Bytes.length_xor, length_growMask, Nat.min_self]

/-- A mask that is put on twice is gone. -/
theorem xor_xor_growMask (b : Bytes) (seed : Bytes) :
    Bytes.xor (Bytes.xor b (growMask h seed b.length)) (growMask h seed b.length) = b := by
  apply Bytes.xor_xor_cancel
  exact Nat.le_of_eq (length_growMask h seed b.length).symm

/-! ### Padded messages -/

/-- Behind zeros and a one is the message. -/
theorem dropFilling_replicate (n : Nat) (message : Bytes) :
    dropFilling (List.replicate n 0 ++ 0x01 :: message) = some message := by
  have hdrop : (List.replicate n 0 ++ 0x01 :: message).dropWhile (· == (0 : UInt8))
      = 0x01 :: message := by
    induction n with
    | zero => rfl
    | succ n ih =>
      rw [List.replicate_succ, List.cons_append, List.dropWhile_cons_of_pos (by decide), ih]
  simp only [dropFilling, hdrop]

/-- Both masks come off, the one of the seed first. -/
theorem oaepUnpad_masked (hseed : seed.length = h.size) (hblock : h.size + 1 ≤ block.length) :
    let maskedBlock := Bytes.xor block (growMask h seed block.length)
    oaepUnpad h (0x00 :: Bytes.xor seed (growMask h maskedBlock seed.length) ++ maskedBlock)
      = if block.take h.size = h.digest [] then dropFilling (block.drop h.size) else none := by
  intro maskedBlock
  have hmasked : maskedBlock.length = block.length := length_xor_growMask block seed
  have hfirst : (Bytes.xor seed (growMask h maskedBlock seed.length)).length = h.size := by
    rw [length_xor_growMask, hseed]
  have hlong : ¬ (0x00 :: Bytes.xor seed (growMask h maskedBlock seed.length)
      ++ maskedBlock).length < oaepOverhead h := by
    rw [oaepOverhead, List.length_append, List.length_cons, hfirst, hmasked]
    omega
  unfold oaepUnpad
  rw [if_neg hlong]
  simp only [List.cons_append]
  rw [List.take_left' hfirst, List.drop_left' hfirst, hmasked]
  -- the mask of the seed was grown from what stands open
  rw [← hseed, xor_xor_growMask, xor_xor_growMask]

/-- Padding fills the length that it is made for, and begins with a zero. -/
theorem exists_oaepPad (hseed : seed.length = h.size)
    (hroom : message.length + oaepOverhead h ≤ size) :
    ∃ rest : Bytes, oaepPad h size seed message = 0x00 :: rest ∧ rest.length + 1 = size := by
  let filling : Bytes := List.replicate (size - (message.length + oaepOverhead h)) 0
  let block : Bytes := h.digest [] ++ filling ++ 0x01 :: message
  let maskedBlock := Bytes.xor block (growMask h seed block.length)
  let maskedSeed := Bytes.xor seed (growMask h maskedBlock seed.length)
  refine ⟨maskedSeed ++ maskedBlock, rfl, ?_⟩
  have hfirst : maskedSeed.length = seed.length := length_xor_growMask seed maskedBlock
  have hsecond : maskedBlock.length = block.length := length_xor_growMask block seed
  rw [List.length_append, hfirst, hsecond]
  simp only [block, filling, oaepOverhead, List.length_append, List.length_cons,
    List.length_replicate, Hash.length_digest] at hroom ⊢
  omega

/-- A padded message comes back. -/
theorem oaepUnpad_oaepPad (hseed : seed.length = h.size) :
    oaepUnpad h (oaepPad h size seed message) = some message := by
  let filling : Bytes := List.replicate (size - (message.length + oaepOverhead h)) 0
  let block : Bytes := h.digest [] ++ filling ++ 0x01 :: message
  have hdigest : (h.digest []).length = h.size := Hash.length_digest h []
  have hblock : h.size + 1 ≤ block.length := by
    simp only [block, List.length_append, List.length_cons, hdigest]
    omega
  have hparts : block = h.digest [] ++ (filling ++ 0x01 :: message) := List.append_assoc ..
  have htake : block.take h.size = h.digest [] := by
    rw [hparts, List.take_left' hdigest]
  have hdrop : block.drop h.size = filling ++ 0x01 :: message := by
    rw [hparts, List.drop_left' hdigest]
  calc oaepUnpad h (oaepPad h size seed message)
      = if block.take h.size = h.digest [] then dropFilling (block.drop h.size) else none :=
        oaepUnpad_masked hseed hblock
    _ = dropFilling (filling ++ 0x01 :: message) := by rw [if_pos htake, hdrop]
    _ = some message := dropFilling_replicate _ message

/-- What is too short for two digests and two bytes more is padding of nothing. -/
theorem oaepUnpad_of_short {padded : Bytes} (hshort : padded.length < oaepOverhead h) :
    oaepUnpad h padded = none := by
  unfold oaepUnpad
  rw [if_pos hshort]

end Crypto

namespace KeyPair

/-- The modulus does not fit into less bytes than its length. -/
theorem shiftLeft_le_modulus (k : KeyPair) : 1 <<< (8 * (k.size - 1)) ≤ k.modulus := by
  have hbits : 8 * (k.size - 1) ≤ k.modulus.log2 := by
    rw [size]
    omega
  rw [Nat.one_shiftLeft]
  calc 2 ^ (8 * (k.size - 1)) ≤ 2 ^ k.modulus.log2 := Nat.pow_le_pow_right (by decide) hbits
    _ ≤ k.modulus := Nat.log2_self_le (Nat.ne_of_gt k.modulus_pos)

/-- Bytes of the length of the modulus that start with zero are a number below it. -/
theorem toNatBE_cons_zero_lt (k : KeyPair) {rest : Bytes} (hlength : rest.length + 1 = k.size) :
    Bytes.toNatBE (0 :: rest) < k.modulus := by
  have hrest : rest.length = k.size - 1 := by omega
  calc Bytes.toNatBE (0 :: rest)
      = Bytes.toNatBE rest := Encoding.toNatBE_cons_zero rest
    _ < 1 <<< (8 * rest.length) := Bytes.toNatBE_lt rest
    _ ≤ k.modulus := by rw [hrest]; exact k.shiftLeft_le_modulus

/-- So is a message that is padded to this length. -/
theorem toNatBE_oaepPad_lt (k : KeyPair) {h : Hash} {seed message : Bytes}
    (hseed : seed.length = h.size) (hroom : message.length + Crypto.oaepOverhead h ≤ k.size) :
    Bytes.toNatBE (Crypto.oaepPad h k.size seed message) < k.modulus := by
  obtain ⟨rest, hpad, hlength⟩ := Crypto.exists_oaepPad hseed hroom
  rw [hpad]
  exact k.toNatBE_cons_zero_lt hlength

/-- And a digest. -/
theorem toNatBE_signaturePad_lt (k : KeyPair) {h : Hash} {message padded : Bytes}
    (hpad : Crypto.signaturePad h k.size message = some padded) :
    Bytes.toNatBE padded < k.modulus := by
  have hlength := Crypto.length_of_signaturePad hpad
  unfold Crypto.signaturePad at hpad
  simp only at hpad
  split at hpad
  · cases hpad
  · obtain rfl := Option.some.inj hpad
    exact k.toNatBE_cons_zero_lt hlength

end KeyPair

end KeyBroker
