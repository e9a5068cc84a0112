import KeyBroker.Crypto.Aes

/-! # AES-GCM

Authenticated encryption under a 16 or 32 byte secret, without associated data. A sealed message is
its nonce, the masked message and a tag over both. Main statements: a sealed message is 28 bytes
longer than what it seals, and what is sealed opens again.
-/

namespace KeyBroker.Crypto.Gcm

/-! ## The keyed hash -/

/-- An element of the field of 2^128 elements; the highest bit of `high` is the constant term. -/
structure Element where
  high : UInt64
  low : UInt64
  deriving DecidableEq, Repr

/-- Adds to `z` the products of `v` with the `n` bits of `x` from the highest down. -/
def timesLoop : (n : Nat) → (x₁ x₀ v₁ v₀ z₁ z₀ : UInt64) → Element
  | 0, _, _, _, _, z₁, z₀ => ⟨z₁, z₀⟩
  | n + 1, x₁, x₀, v₁, v₀, z₁, z₀ =>
    let reduction : UInt64 := if v₀ &&& 1 = 0 then 0 else 0xe100000000000000
    let w₁ := (v₁ >>> 1) ^^^ reduction
    let w₀ := (v₁ <<< 63) ||| (v₀ >>> 1)
    let y₁ := (x₁ <<< 1) ||| (x₀ >>> 63)
    if x₁ >>> 63 = 0 then timesLoop n y₁ (x₀ <<< 1) w₁ w₀ z₁ z₀
    else timesLoop n y₁ (x₀ <<< 1) w₁ w₀ (z₁ ^^^ v₁) (z₀ ^^^ v₀)

/-- The product of two elements. -/
def Element.times (x y : Element) : Element := timesLoop 128 x.high x.low y.high y.low 0 0

/-- The element with the given bytes; missing bytes count as zero. -/
def elementOf (b : Bytes) : Element :=
  match words64 (b ++ List.replicate (16 - b.length) 0) with
  | high :: low :: _ => ⟨high, low⟩
  | _ => ⟨0, 0⟩

/-- Takes one element into the hash. -/
def hashStep (key acc x : Element) : Element :=
  Element.times ⟨acc.high ^^^ x.high, acc.low ^^^ x.low⟩ key

/-- The hash of a byte string, the last block filled with zeros. -/
def hashBytes (key acc : Element) : Bytes → Element
  | [] => acc
  | b :: r => hashBytes key (hashStep key acc (elementOf (b :: r.take 15))) (r.drop 15)
termination_by b => b.length
decreasing_by simp only [List.length_drop, List.length_cons]; omega

/-! ## Sealing and opening -/

/-- The counter block of a nonce. -/
def counterBlock (nonce : Bytes) (counter : UInt32) : Aes.Block :=
  match words32 nonce with
  | a :: b :: c :: _ => ⟨a, b, c, counter⟩
  | _ => ⟨0, 0, 0, counter⟩

/-- At least `size` bytes that mask a message; the counter of the first block is two. -/
def keyStream (keys : List Aes.Block) (nonce : Bytes) (size : Nat) : Bytes :=
  (List.range ((size + 15) / 16)).flatMap fun i =>
    (Aes.encrypt keys (counterBlock nonce (UInt32.ofNat (i + 2)))).bytes

/-- Masks a message, or takes the mask away. -/
def mask (keys : List Aes.Block) (nonce message : Bytes) : Bytes :=
  Bytes.xor message (keyStream keys nonce message.length)

/-- The tag of a masked message. -/
def tag (keys : List Aes.Block) (nonce masked : Bytes) : Bytes :=
  let zero := Aes.encrypt keys ⟨0, 0, 0, 0⟩
  let key : Element := ⟨word64 zero.c₀ zero.c₁, word64 zero.c₂ zero.c₃⟩
  let sum := hashStep key (hashBytes key ⟨0, 0⟩ masked) ⟨0, UInt64.ofNat (8 * masked.length)⟩
  Bytes.xor (bytes64 sum.high ++ bytes64 sum.low) (Aes.encrypt keys (counterBlock nonce 1)).bytes

/-- The length of a nonce. -/
def nonceSize : Nat := 12

/-- The length of a tag. -/
def tagSize : Nat := 16

/-- The longest message that may be sealed, in bytes. -/
def maxMessage : Nat := 1 <<< 36

/-- Whether a secret has one of the two lengths of a key. -/
def keySized (secret : Bytes) : Bool := secret.length == 16 || secret.length == 32

/-- The nonce, the masked message and the tag. -/
def sealed (secret nonce message : Bytes) : Bytes :=
  let keys := Aes.schedule secret
  let masked := mask keys nonce message
  nonce ++ masked ++ tag keys nonce masked

/-- The message in a sealed one, if the tag fits. -/
def opened? (secret box : Bytes) : Option Bytes :=
  let keys := Aes.schedule secret
  let nonce := box.take nonceSize
  let body := box.drop nonceSize
  let masked := body.take (body.length - tagSize)
  if tag keys nonce masked = body.drop (body.length - tagSize) then some (mask keys nonce masked)
  else none

theorem le_length_keyStream (keys : List Aes.Block) (nonce : Bytes) (size : Nat) :
    size ≤ (keyStream keys nonce size).length := by
  have whole : (keyStream keys nonce size).length = (size + 15) / 16 * 16 := by
    simp [keyStream, List.length_flatMap, List.map_const']
  omega

@[simp] theorem length_mask (keys : List Aes.Block) (nonce message : Bytes) :
    (mask keys nonce message).length = message.length := by
  have := le_length_keyStream keys nonce message.length
  rw [mask, Bytes.length_xor]
  omega

theorem mask_mask (keys : List Aes.Block) (nonce message : Bytes) :
    mask keys nonce (mask keys nonce message) = message := by
  rw [mask, length_mask, mask]
  exact Bytes.xor_xor_cancel _ _ (le_length_keyStream keys nonce message.length)

@[simp] theorem length_tag (keys : List Aes.Block) (nonce masked : Bytes) :
    (tag keys nonce masked).length = tagSize := by
  simp [tag, Bytes.length_xor, tagSize]

theorem length_sealed (secret nonce message : Bytes) :
    (sealed secret nonce message).length = nonce.length + message.length + tagSize := by
  simp [sealed]
  omega

theorem opened?_sealed (secret message : Bytes) {nonce : Bytes} (h : nonce.length = nonceSize) :
    opened? secret (sealed secret nonce message) = some message := by
  have first : (sealed secret nonce message).take nonceSize = nonce := by
    rw [sealed, List.append_assoc, List.take_left' h]
  have body : (sealed secret nonce message).drop nonceSize
      = mask (Aes.schedule secret) nonce message
        ++ tag (Aes.schedule secret) nonce (mask (Aes.schedule secret) nonce message) := by
    rw [sealed, List.append_assoc, List.drop_left' h]
  simp [opened?, first, body, mask_mask]

end KeyBroker.Crypto.Gcm
