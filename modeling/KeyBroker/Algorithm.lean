import KeyBroker.Text.Quoted

/-! # Algorithms

Algorithms have ordinals, which travel between programs and never change, and names, which people
write. A primitive is what an algorithm stands for once the operation is known.
-/

namespace KeyBroker

/-- The digest functions. -/
inductive Hash where
  | sha1
  | sha256
  | sha512
  deriving DecidableEq, Repr

namespace Hash

/-- The length of a digest in bytes. -/
def size : Hash → Nat
  | sha1 => 20
  | sha256 => 32
  | sha512 => 64

/-- The word for a digest function in a primitive's description. -/
def word : Hash → String
  | sha1 => "Sha1"
  | sha256 => "Sha256"
  | sha512 => "Sha512"

end Hash

/-- What a caller may ask for: the operation's own default, or one digest function. -/
inductive Algorithm where
  | standard
  | hash (h : Hash)
  deriving DecidableEq, Repr

/-- What a stored key is used for. -/
inductive Operation where
  | encrypt
  | decrypt
  | hmac
  | sign
  | verify
  deriving DecidableEq, Repr

namespace Operation

/-- The operation's name in requests and records. -/
def name : Operation → String
  | encrypt => "encrypt"
  | decrypt => "decrypt"
  | hmac => "hmac"
  | sign => "sign"
  | verify => "verify"

/-- The operation's word in descriptions. -/
def word : Operation → String
  | encrypt => "Encrypt"
  | decrypt => "Decrypt"
  | hmac => "Hmac"
  | sign => "Sign"
  | verify => "Verify"

end Operation

/-- How a message is kept confidential. The standard cipher is AES-GCM under a secret and OAEP with
SHA-1 under a key pair; OAEP with a digest of one's choice needs a key pair. -/
inductive Cipher where
  | standard
  | oaep (h : Hash)
  deriving DecidableEq, Repr

/-- A concrete way to run an operation. -/
inductive Primitive where
  | cipher (c : Cipher)
  | mac (h : Hash)
  | signature (h : Hash)
  deriving DecidableEq, Repr

/-- Every primitive: the standard cipher, and what each hash gives. -/
def Primitive.all : List Primitive :=
  .cipher .standard :: [Hash.sha1, .sha256, .sha512].flatMap fun h =>
    [.cipher (.oaep h), .mac h, .signature h]

/-- The primitive's description. -/
def Primitive.describe : Primitive → String
  | cipher .standard => "Cipher(Default)"
  | cipher (.oaep h) => s!"Cipher(RsaOaep({h.word}))"
  | mac h => s!"Mac({h.word})"
  | signature h => s!"Signature(RsaPkcs1v15({h.word}))"

/-- Why an algorithm cannot be had. -/
inductive Unsupported where
  | unknownOrdinal (n : UInt32)
  | unknownName (name : String)
  | disabled (a : Algorithm)
  | cannotRun (op : Operation) (p : Primitive)
  deriving DecidableEq, Repr

namespace Algorithm

/-- Every algorithm, by ascending ordinal. -/
def all : List Algorithm := [standard, hash .sha1, hash .sha256, hash .sha512]

/-- The number an algorithm has on the wire. -/
def ordinal : Algorithm → UInt32
  | standard => 0
  | hash .sha1 => 1
  | hash .sha256 => 2
  | hash .sha512 => 3

/-- The name an algorithm is printed with. -/
def name : Algorithm → String
  | standard => "default"
  | hash .sha1 => "sha1"
  | hash .sha256 => "sha256"
  | hash .sha512 => "sha512"

/-- The digest function an algorithm names. -/
def hash? : Algorithm → Option Hash
  | standard => none
  | hash h => some h

/-- The algorithm with a given ordinal. -/
def ofOrdinal (n : UInt32) : Except Unsupported Algorithm :=
  match all.find? (·.ordinal == n) with
  | some a => .ok a
  | none => .error (.unknownOrdinal n)

/-- The form in which names are compared: ASCII capitals made small, hyphens left out. -/
def plainName (name : String) : String :=
  String.ofList ((name.toList.map Char.toLower).filter (· ≠ '-'))

/-- The algorithm with a given name, up to capitals and hyphens. -/
def ofName (name : String) : Except Unsupported Algorithm :=
  match all.find? (·.name == plainName name) with
  | some a => .ok a
  | none => .error (.unknownName (plainName name))

theorem ofOrdinal_ordinal (a : Algorithm) : ofOrdinal a.ordinal = .ok a := by
  cases a with
  | standard => rfl
  | hash h => cases h <;> rfl

end Algorithm

/-- The reason in words. -/
def Unsupported.message : Unsupported → String
  | unknownOrdinal n => s!"unknown algorithm ordinal {n.toNat}"
  | unknownName name => "unknown algorithm name " ++ Text.quote name
  | disabled a => s!"{a.name} is disabled on this broker"
  | cannotRun op p => s!"{op.word} cannot run {p.describe}"

end KeyBroker
