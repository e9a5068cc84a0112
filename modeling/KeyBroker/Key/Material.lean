import KeyBroker.Key.Encoding

/-! # Key material

The material of a key is a secret or a key pair. Descriptions of key material show sizes only.
-/

namespace KeyBroker

/-- The two kinds of key. -/
inductive KeyKind where
  | symmetric
  | asymmetric
  deriving DecidableEq, Repr

namespace KeyKind

/-- The kind in documents and messages. -/
def name : KeyKind → String
  | symmetric => "symmetric"
  | asymmetric => "asymmetric"

/-- The kind with a given name. -/
def ofName? (name : String) : Option KeyKind :=
  if name = "symmetric" then some symmetric
  else if name = "asymmetric" then some asymmetric
  else none

end KeyKind

/-- What a key is made of. -/
inductive KeyMaterial where
  | secret (bytes : Bytes)
  | pair (k : KeyPair)
  deriving DecidableEq, Repr

/-- The description of a secret. -/
def describeSecret (bytes : Bytes) : String := s!"SecretBytes([REDACTED; {bytes.length}])"

/-- The description of a key pair. -/
def KeyPair.describe (k : KeyPair) : String :=
  "RsaKeyPair \x7b bits: " ++ toString (8 * k.size) ++ ", private: \"[REDACTED]\" \x7d"

namespace KeyMaterial

/-- The kind of a key. -/
def kind : KeyMaterial → KeyKind
  | secret _ => .symmetric
  | pair _ => .asymmetric

/-- The description of a key. -/
def describe : KeyMaterial → String
  | secret bytes => s!"Symmetric({describeSecret bytes})"
  | pair k => s!"Asymmetric({k.describe})"

end KeyMaterial

end KeyBroker
