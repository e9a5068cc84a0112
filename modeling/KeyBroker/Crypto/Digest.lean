import KeyBroker.Algorithm
import KeyBroker.Crypto.Sha1
import KeyBroker.Crypto.Sha256
import KeyBroker.Crypto.Sha512

/-! # Digests and message authentication

The digest functions by name, and the keyed digest HMAC over each of them. Main statements: digests
and tags have the size of their digest function.
-/

namespace KeyBroker

/-- The digest of a message. -/
def Hash.digest : Hash → Bytes → Bytes
  | sha1 => Crypto.Sha1.digest
  | sha256 => Crypto.Sha256.digest
  | sha512 => Crypto.Sha512.digest

/-- The length of the blocks a digest function works on, in bytes. -/
def Hash.blockSize : Hash → Nat
  | sha1 => 64
  | sha256 => 64
  | sha512 => 128

@[simp] theorem Hash.length_digest (h : Hash) (message : Bytes) :
    (h.digest message).length = h.size := by
  cases h <;> simp [Hash.digest, Hash.size]

namespace Crypto

/-- The key of HMAC: a key longer than a block is replaced by its digest, and the rest of the block
is filled with zeros. -/
def macKey (h : Hash) (key : Bytes) : Bytes :=
  let short := if key.length > h.blockSize then h.digest key else key
  short ++ List.replicate (h.blockSize - short.length) 0

/-- The HMAC tag of a message. -/
def mac (h : Hash) (key message : Bytes) : Bytes :=
  let key := macKey h key
  let inner := h.digest (key.map (· ^^^ 0x36) ++ message)
  h.digest (key.map (· ^^^ 0x5c) ++ inner)

@[simp] theorem length_mac (h : Hash) (key message : Bytes) :
    (mac h key message).length = h.size := by
  simp [mac]

end Crypto

end KeyBroker
