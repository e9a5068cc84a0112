import KeyBroker.Crypto.Words

/-! # Iterated hashing

A digest function pads its message to whole blocks, feeds them one after the other to a compression
function, and writes out the chaining value it ends with.
-/

namespace KeyBroker.Crypto

/-- Zero bytes that fill a message of the given length, its end mark and its length field to whole
blocks. -/
def zeroFill (block lengthField size : Nat) : Nat :=
  (block - (size + 1 + lengthField) % block) % block

/-- A message with its end mark, its filling and its length in bits. -/
def padded (block lengthField : Nat) (message : Bytes) : Bytes :=
  let size := message.length
  message ++ 0x80 :: List.replicate (zeroFill block lengthField size) 0
    ++ Bytes.ofNatBE lengthField (8 * size)

/-- Feeds whole blocks of `last + 1` bytes to a compression function; what is left of a block at the
end is not fed. -/
def absorb {State : Type} (compress : State → Bytes → State) (last : Nat) (state : State)
    (message : Bytes) : State :=
  match h : message.drop last with
  | [] => state
  | _ :: rest => absorb compress last (compress state (message.take (last + 1))) rest
termination_by message.length
decreasing_by
  have := congrArg List.length h
  simp at this
  omega

/-- The message schedule, latest word first: each new word is made from the words before it. -/
def extend {Word : Type} (next : List Word → Word) : Nat → List Word → List Word
  | 0, words => words
  | n + 1, words => extend next n (next words :: words)

end KeyBroker.Crypto
