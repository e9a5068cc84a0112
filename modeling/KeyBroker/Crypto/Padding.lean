import KeyBroker.Crypto.Digest

/-! # Paddings of RSA messages

OAEP wraps a message in two masks made from a random seed; the signature padding stands around a
digest and names its function. Both fill the whole length of the modulus.
-/

namespace KeyBroker.Crypto

/-! ## OAEP -/

/-- A mask of `size` bytes grown from a seed. -/
def growMask (h : Hash) (seed : Bytes) (size : Nat) : Bytes :=
  ((List.range ((size + h.size - 1) / h.size)).flatMap fun i =>
    h.digest (seed ++ Bytes.ofNatBE 4 i)).take size

/-- The bytes that a message takes beyond its own length. -/
def oaepOverhead (h : Hash) : Nat := 2 * h.size + 2

/-- Pads a message to `size` bytes; the seed has the size of a digest. -/
def oaepPad (h : Hash) (size : Nat) (seed message : Bytes) : Bytes :=
  let filling := List.replicate (size - (message.length + oaepOverhead h)) 0
  let block := h.digest [] ++ filling ++ 0x01 :: message
  let maskedBlock := Bytes.xor block (growMask h seed block.length)
  let maskedSeed := Bytes.xor seed (growMask h maskedBlock seed.length)
  0x00 :: maskedSeed ++ maskedBlock

/-- The message behind the filling: zeros, then a one. -/
def dropFilling (b : Bytes) : Option Bytes :=
  match b.dropWhile (· == 0) with
  | 0x01 :: message => some message
  | _ => none

/-- The message in padded bytes. -/
def oaepUnpad (h : Hash) (padded : Bytes) : Option Bytes :=
  if padded.length < oaepOverhead h then none
  else
    match padded with
    | 0x00 :: r =>
      let maskedBlock := r.drop h.size
      let seed := Bytes.xor (r.take h.size) (growMask h maskedBlock h.size)
      let block := Bytes.xor maskedBlock (growMask h seed maskedBlock.length)
      if block.take h.size = h.digest [] then dropFilling (block.drop h.size) else none
    | _ => none

/-! ## Signatures -/

/-- The bytes that name a digest function in front of a digest. -/
def digestLabel : Hash → Bytes
  | .sha1 => [0x30, 0x21, 0x30, 0x09, 0x06, 0x05, 0x2b, 0x0e, 0x03, 0x02, 0x1a, 0x05, 0x00, 0x04,
      0x14]
  | .sha256 => [0x30, 0x31, 0x30, 0x0d, 0x06, 0x09, 0x60, 0x86, 0x48, 0x01, 0x65, 0x03, 0x04, 0x02,
      0x01, 0x05, 0x00, 0x04, 0x20]
  | .sha512 => [0x30, 0x51, 0x30, 0x0d, 0x06, 0x09, 0x60, 0x86, 0x48, 0x01, 0x65, 0x03, 0x04, 0x02,
      0x03, 0x05, 0x00, 0x04, 0x40]

/-- Pads the digest of a message to `size` bytes, if there is room for eight bytes of filling. -/
def signaturePad (h : Hash) (size : Nat) (message : Bytes) : Option Bytes :=
  let content := digestLabel h ++ h.digest message
  if size < content.length + 11 then none
  else some (0x00 :: 0x01 :: List.replicate (size - content.length - 3) 0xff ++ 0x00 :: content)

end KeyBroker.Crypto
