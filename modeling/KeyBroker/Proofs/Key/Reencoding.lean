import KeyBroker.Proofs.Access.Disclosure
import KeyBroker.Proofs.Key.Canonical
import KeyBroker.Proofs.Key.Lengths
import KeyBroker.Proofs.Stream.Credit

/-! # A key pair that is read and written again

  Nine numbers stand in the written form of a key pair, and six of them are read. The last
  three, which help to compute, are not looked at. They are worked out anew when the pair is
  written, so one pair may be read from many byte strings, but is written in one way only.
  Those worked out may be longer than those read, so a document of nearly the longest length
  may be read and have no written form.

  What is written is read as the same pair. A key pair leaves the broker in this form, so the
  key that a client makes of it is the one in the store, unless it reads what is left of a
  refused answer.
-/

namespace KeyBroker

/-! ### Reading and writing -/

namespace KeyPair

variable {k : KeyPair} {der bytes : Bytes}

end KeyPair

/-! ### What a client makes of it -/

namespace Call

variable {set : String} {version : UInt32} {body : Body}

end Call

namespace Link

variable {b : Broker} {draws : Draws} {limits : LinkLimits} {l : Link}

end Link

namespace KeyPair

end KeyPair

end KeyBroker
