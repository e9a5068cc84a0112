import KeyBroker.Crypto.Gcm
import KeyBroker.Crypto.Padding
import KeyBroker.Key.Material
import KeyBroker.Registry

/-! # Operations with a key

Running an operation with a key: encryption, decryption, message authentication, signing and
verifying. What is drawn at random is an argument. Main statement: verifying with a key pair always
gives a verdict.
-/

namespace KeyBroker

/-- What is drawn at random for one operation: a nonce, a seed of which a prefix is used, and a
number to hide the private operation of a signature behind. -/
structure Draw where
  nonce : Vector UInt8 12
  seed : Vector UInt8 64
  blinding : Nat
  deriving DecidableEq, Repr

/-- What goes wrong inside an algorithm. -/
inductive AlgorithmFault where
  | secretLength (n : Nat)
  | tooShort (n : Nat)
  | sealTooLong
  | badTag
  | oaepTooLong
  | oaepBroken
  | oaepNoInverse
  | signatureTooLong
  | signatureNoInverse
  deriving DecidableEq, Repr

/-- The reason in words. -/
def AlgorithmFault.message : AlgorithmFault → String
  | secretLength n => s!"AES-GCM needs a 16 or 32 byte secret, key holds {n} bytes"
  | tooShort n => s!"ciphertext too short: {n} bytes"
  | sealTooLong => "AES-GCM encryption failed"
  | badTag => "AES-GCM authentication failed"
  | oaepTooLong => "RSA-OAEP encryption: message too long"
  | oaepBroken => "RSA-OAEP decryption: decryption error"
  | oaepNoInverse => "RSA-OAEP decryption: internal error"
  | signatureTooLong => "RSA signing: message too long"
  | signatureNoInverse => "RSA signing: internal error"

/-- Why an operation with a key fails. -/
inductive KeyFault where
  | kindMismatch (required held : KeyKind)
  | unsupported (cause : Unsupported)
  | algorithm (cause : AlgorithmFault)
  | badPair (cause : PairFault)
  deriving DecidableEq, Repr

/-- The reason in words. -/
def KeyFault.message : KeyFault → String
  | kindMismatch required held =>
    s!"Key kind mismatch: operation requires {required.name} key, set holds {held.name} key"
  | unsupported cause => s!"Unsupported algorithm: {cause.message}"
  | algorithm cause => s!"Algorithm failure: {cause.message}"
  | badPair cause => s!"Invalid key material: {cause.message}"

/-- What an operation gives. -/
inductive Outcome where
  | bytes (b : Bytes)
  | verdict (valid : Bool)
  deriving DecidableEq, Repr

namespace KeyMaterial

/-- The secret, for operations that need one. -/
def requireSecret : KeyMaterial → Except KeyFault Bytes
  | secret bytes => .ok bytes
  | pair _ => .error (.kindMismatch .symmetric .asymmetric)

/-- The key pair, for operations that need one. -/
def requirePair : KeyMaterial → Except KeyFault KeyPair
  | pair k => .ok k
  | secret _ => .error (.kindMismatch .asymmetric .symmetric)

end KeyMaterial

/-! ## Under a secret -/

/-- Seals a message under a secret. -/
def sealWith (secret : Bytes) (nonce : Vector UInt8 12) (message : Bytes) :
    Except AlgorithmFault Bytes :=
  if !Crypto.Gcm.keySized secret then .error (.secretLength secret.length)
  else if message.length > Crypto.Gcm.maxMessage then .error .sealTooLong
  else .ok (Crypto.Gcm.sealed secret nonce.toList message)

/-- Opens a sealed message under a secret. -/
def openWith (secret box : Bytes) : Except AlgorithmFault Bytes :=
  if !Crypto.Gcm.keySized secret then .error (.secretLength secret.length)
  else if box.length < Crypto.Gcm.nonceSize + Crypto.Gcm.tagSize then .error (.tooShort box.length)
  else
    match Crypto.Gcm.opened? secret box with
    | some message => .ok message
    | none => .error .badTag

/-! ## Under a key pair -/

namespace KeyPair

/-- Encrypts a message with OAEP. -/
def encrypt (k : KeyPair) (h : Hash) (seed : Vector UInt8 64) (message : Bytes) :
    Except AlgorithmFault Bytes :=
  if message.length + Crypto.oaepOverhead h > k.size then .error .oaepTooLong
  else
    let padded := Crypto.oaepPad h k.size (seed.toList.take h.size) message
    .ok (Bytes.ofNatBE k.size (k.publicPower (Bytes.toNatBE padded)))

/-- Decrypts a message with OAEP. A ciphertext is as long as the modulus. -/
def decrypt (k : KeyPair) (h : Hash) (ciphertext : Bytes) : Except AlgorithmFault Bytes :=
  if ciphertext.length ≠ k.size then .error .oaepBroken
  else
    match k.undo (Bytes.toNatBE ciphertext) with
    | .error .outOfRange => .error .oaepBroken
    | .error .noInverse => .error .oaepNoInverse
    | .ok m =>
      match Crypto.oaepUnpad h (Bytes.ofNatBE k.size m) with
      | some message => .ok message
      | none => .error .oaepBroken

/-- Signs the digest of a message, hidden behind a factor that was drawn. -/
def sign (k : KeyPair) (h : Hash) (drawn : Nat) (message : Bytes) : Except AlgorithmFault Bytes :=
  match Crypto.signaturePad h k.size message with
  | none => .error .signatureTooLong
  | some padded =>
    match k.undoBlind drawn (Bytes.toNatBE padded) with
    | .ok s => .ok (Bytes.ofNatBE k.size s)
    | .error _ => .error .signatureNoInverse

/-- Whether a signature is one of the message. A signature of another length or out of range is
none, and a modulus without room for the padding has none. -/
def verify (k : KeyPair) (h : Hash) (message signature : Bytes) : Bool :=
  let s := Bytes.toNatBE signature
  signature.length == k.size && s < k.modulus
    && Crypto.signaturePad h k.size message == some (Bytes.ofNatBE k.size (k.publicPower s))

end KeyPair

/-! ## Under any key -/

namespace Operation

/-- Encrypts under a key. -/
def encryptUnder (key : KeyMaterial) (c : Cipher) (draw : Draw) (message : Bytes) :
    Except KeyFault Bytes :=
  match c, key with
  | .standard, .secret secret => (sealWith secret draw.nonce message).mapError .algorithm
  | .standard, .pair k => (k.encrypt .sha1 draw.seed message).mapError .algorithm
  | .oaep h, key => do (← key.requirePair).encrypt h draw.seed message |>.mapError .algorithm

/-- Decrypts under a key. -/
def decryptUnder (key : KeyMaterial) (c : Cipher) (ciphertext : Bytes) : Except KeyFault Bytes :=
  match c, key with
  | .standard, .secret secret => (openWith secret ciphertext).mapError .algorithm
  | .standard, .pair k => (k.decrypt .sha1 ciphertext).mapError .algorithm
  | .oaep h, key => do (← key.requirePair).decrypt h ciphertext |>.mapError .algorithm

/-- Runs an operation with a primitive under a key. The auxiliary bytes are the signature to be
verified and mean nothing elsewhere. -/
def run (op : Operation) (p : Primitive) (key : KeyMaterial) (draw : Draw) (payload : Bytes)
    (aux : Option Bytes) : Except KeyFault Outcome :=
  match op, p with
  | encrypt, .cipher c => (encryptUnder key c draw payload).map .bytes
  | decrypt, .cipher c => (decryptUnder key c payload).map .bytes
  | hmac, .mac h => key.requireSecret.map fun secret => .bytes (Crypto.mac h secret payload)
  | sign, .signature h => do
    let k ← key.requirePair
    ((k.sign h draw.blinding payload).mapError .algorithm).map .bytes
  | verify, .signature h =>
    key.requirePair.map fun k => .verdict (k.verify h payload (aux.getD []))
  | op, p => .error (.unsupported (.cannotRun op p))

theorem run_verify_pair (h : Hash) (k : KeyPair) (draw : Draw) (payload : Bytes)
    (aux : Option Bytes) :
    verify.run (.signature h) (.pair k) draw payload aux
      = .ok (.verdict (k.verify h payload (aux.getD []))) := rfl

end Operation

end KeyBroker
