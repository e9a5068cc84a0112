import KeyBroker.Crypto.Compression

/-! # SHA-1

The 160-bit digest function. Main statement: a digest has twenty bytes.
-/

namespace KeyBroker.Crypto.Sha1

/-- The chaining value. -/
structure State where
  a : UInt32
  b : UInt32
  c : UInt32
  d : UInt32
  e : UInt32
  deriving DecidableEq, Repr

/-- The chaining value before the first block. -/
def start : State := ⟨0x67452301, 0xefcdab89, 0x98badcfe, 0x10325476, 0xc3d2e1f0⟩

/-- The next word of the schedule. -/
def nextWord (words : List UInt32) : UInt32 :=
  rotl32 (words.getD 2 0 ^^^ words.getD 7 0 ^^^ words.getD 13 0 ^^^ words.getD 15 0) 1

/-- The round's function of three words, and its constant. -/
def mix (round : Nat) (b c d : UInt32) : UInt32 × UInt32 :=
  if round < 20 then ((b &&& c) ||| (~~~b &&& d), 0x5a827999)
  else if round < 40 then (b ^^^ c ^^^ d, 0x6ed9eba1)
  else if round < 60 then ((b &&& c) ||| (b &&& d) ||| (c &&& d), 0x8f1bbcdc)
  else (b ^^^ c ^^^ d, 0xca62c1d6)

/-- One round on one word of the schedule. -/
def step (s : State × Nat) (word : UInt32) : State × Nat :=
  let (⟨a, b, c, d, e⟩, round) := s
  let (f, k) := mix round b c d
  (⟨rotl32 a 5 + f + e + k + word, a, rotl32 b 30, c, d⟩, round + 1)

/-- Takes one block into the chaining value. -/
def compress (s : State) (block : Bytes) : State :=
  let schedule := (extend nextWord 64 (words32 block).reverse).reverse
  let t := (schedule.foldl step (s, 0)).1
  ⟨s.a + t.a, s.b + t.b, s.c + t.c, s.d + t.d, s.e + t.e⟩

/-- The chaining value as bytes. -/
def State.bytes (s : State) : Bytes :=
  bytes32 s.a ++ bytes32 s.b ++ bytes32 s.c ++ bytes32 s.d ++ bytes32 s.e

/-- The digest of a message. -/
def digest (message : Bytes) : Bytes := (absorb compress 63 start (padded 64 8 message)).bytes

@[simp] theorem length_digest (message : Bytes) : (digest message).length = 20 := rfl

end KeyBroker.Crypto.Sha1
