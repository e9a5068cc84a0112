import KeyBroker.Bytes

/-! # Machine words as bytes

Words of 32 and 64 bits are read from and written to bytes with the most significant byte first.
Main statements: a written word has four or eight bytes.
-/

namespace KeyBroker.Crypto

/-- The 32-bit word with the given bytes. -/
def word32 (a b c d : UInt8) : UInt32 :=
  (a.toUInt32 <<< 24) ||| (b.toUInt32 <<< 16) ||| (c.toUInt32 <<< 8) ||| d.toUInt32

/-- The bytes of a 32-bit word. -/
def bytes32 (w : UInt32) : Bytes :=
  [(w >>> 24).toUInt8, (w >>> 16).toUInt8, (w >>> 8).toUInt8, w.toUInt8]

/-- The 64-bit word with the given halves. -/
def word64 (high low : UInt32) : UInt64 := (high.toUInt64 <<< 32) ||| low.toUInt64

/-- The bytes of a 64-bit word. -/
def bytes64 (w : UInt64) : Bytes := bytes32 (w >>> 32).toUInt32 ++ bytes32 w.toUInt32

/-- The 32-bit words of a byte string; bytes that fill no whole word are left out. -/
def words32 : Bytes → List UInt32
  | a :: b :: c :: d :: r => word32 a b c d :: words32 r
  | _ => []

/-- The 64-bit words of a byte string; bytes that fill no whole word are left out. -/
def words64 : Bytes → List UInt64
  | a :: b :: c :: d :: e :: f :: g :: h :: r =>
    word64 (word32 a b c d) (word32 e f g h) :: words64 r
  | _ => []

/-- A 32-bit word turned to the left. -/
def rotl32 (w n : UInt32) : UInt32 := (w <<< n) ||| (w >>> (32 - n))

/-- A 32-bit word turned to the right. -/
def rotr32 (w n : UInt32) : UInt32 := (w >>> n) ||| (w <<< (32 - n))

/-- A 64-bit word turned to the right. -/
def rotr64 (w n : UInt64) : UInt64 := (w >>> n) ||| (w <<< (64 - n))

@[simp] theorem length_bytes32 (w : UInt32) : (bytes32 w).length = 4 := rfl

@[simp] theorem length_bytes64 (w : UInt64) : (bytes64 w).length = 8 := rfl

end KeyBroker.Crypto
