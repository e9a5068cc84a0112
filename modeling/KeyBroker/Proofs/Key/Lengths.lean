import KeyBroker.Proofs.Key.Written

/-! # How long a key pair is

  The three numbers at the end of a written key pair are below its modulus, whose size is limited.
  So what they add to a document is limited as well, while nothing but the length of the document
  limits the private exponent.
-/

namespace KeyBroker

namespace Encoding

variable {n : Nat}

/-! ### Lengths of lengths -/

end Encoding

/-! ### Lengths of documents -/

namespace KeyPair

open Encoding (integers integer maxLength)

variable {k : KeyPair}

end KeyPair

end KeyBroker
