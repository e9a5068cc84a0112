import KeyBroker.Key.Pair

/-! # Key pairs as bytes

Key pairs are written by the distinguished encoding rules: a value is a tag, the length of its
content in the shortest form, and the content; a number is its bytes in the shortest form, with a
zero byte in front where the first bit is set. A private key is a sequence of nine numbers, a public
key of two. No document is longer than a fixed length, neither one that is read nor one that is
written.
-/

namespace KeyBroker

namespace Encoding

/-- The longest document, in bytes. -/
def maxLength : Nat := (1 <<< 28) - 1

/-- The tag of a number. -/
def integerTag : UInt8 := 0x02

/-- The tag of a sequence. -/
def sequenceTag : UInt8 := 0x30

/-- The bytes of a number, most significant first, in the shortest form; zero has one byte. -/
def shortest (n : Nat) : Bytes := Bytes.ofNatBE (n.log2 / 8 + 1) n

/-- A length: below 128 it is one byte, else its shortest form behind a count. -/
def lengthBytes (n : Nat) : Bytes :=
  if n < 128 then [UInt8.ofNat n]
  else
    let digits := shortest n
    UInt8.ofNat (128 + digits.length) :: digits

/-- A value. -/
def value (tag : UInt8) (content : Bytes) : Bytes := tag :: lengthBytes content.length ++ content

/-- A number. -/
def integer (n : Nat) : Bytes :=
  let digits := shortest n
  value integerTag (if digits.headD 0 < 0x80 then digits else 0 :: digits)

/-- A sequence of numbers. -/
def integers (ns : List Nat) : Bytes := value sequenceTag (ns.flatMap integer)

/-- Takes a length off the front. Forms that are not the shortest are refused. -/
def readLength : Bytes → Option (Nat × Bytes)
  | [] => none
  | first :: r =>
    if first < 0x80 then some (first.toNat, r)
    else
      let count := first.toNat - 128
      let digits := r.take count
      let n := Bytes.toNatBE digits
      if digits.length = count ∧ n ≥ 128 ∧ digits.headD 0 ≠ 0 then some (n, r.drop count) else none

/-- Takes a value with the given tag off the front, and gives its content. -/
def readValue (tag : UInt8) : Bytes → Option (Bytes × Bytes)
  | [] => none
  | t :: r =>
    if t = tag then
      match readLength r with
      | some (n, r) => if n ≤ r.length then some (r.take n, r.drop n) else none
      | none => none
    else none

/-- The number with the given content. Negative and needlessly long forms are refused. -/
def integerOf : Bytes → Option Nat
  | [] => none
  | [b] => if b < 0x80 then some b.toNat else none
  | b :: c :: r =>
    if b ≥ 0x80 ∨ (b = 0 ∧ c < 0x80) then none else some (Bytes.toNatBE (b :: c :: r))

/-- Takes a number off the front. -/
def readInteger (b : Bytes) : Option (Nat × Bytes) :=
  match readValue integerTag b with
  | some (content, r) => (integerOf content).map fun n => (n, r)
  | none => none

/-- Reads `count` numbers that fill the whole byte string. -/
def readIntegers : (count : Nat) → Bytes → Option (List Nat)
  | 0, b => if b.isEmpty then some [] else none
  | count + 1, b =>
    match readInteger b with
    | some (n, r) => (readIntegers count r).map (n :: ·)
    | none => none

/-- Reads a sequence of `count` numbers that fills the whole byte string. -/
def readSequence (count : Nat) (b : Bytes) : Option (List Nat) :=
  match readValue sequenceTag b with
  | some (content, []) => readIntegers count content
  | _ => none

end Encoding

/-- Why a key pair cannot be read or written. -/
inductive PairFault where
  | notEncoded
  | notValid
  | noCoefficient
  | tooLong
  deriving DecidableEq, Repr

/-- The reason in words. -/
def PairFault.message : PairFault → String
  | notEncoded => "bad PKCS#1 private key: not the encoding of nine numbers"
  | notValid => "bad PKCS#1 private key: the numbers do not fit together"
  | noCoefficient => "encoding private key: PKCS#1 cryptographic error"
  | tooLong => "encoding private key: PKCS#1 ASN.1 error: integer overflow"

namespace KeyPair

/-- The public half as bytes. Its numbers are at most the modulus, so it is never too long. -/
def publicBytes (k : KeyPair) : Bytes := Encoding.integers [k.modulus, k.publicExponent]

/-- The numbers of a key pair in the order of its written form, with any three at the end. -/
def listed (k : KeyPair) (x y z : Nat) : List Nat :=
  [0, k.modulus, k.publicExponent, k.privateExponent, k.prime₁, k.prime₂, x, y, z]

/-- The written form of a key pair with a coefficient. -/
def document (k : KeyPair) (coefficient : Nat) : Bytes :=
  Encoding.integers (k.listed k.exponent₁ k.exponent₂ coefficient)

/-- The whole pair as bytes. The three numbers at the end follow from those before them; the last
one exists only for coprime factors. -/
def privateBytes (k : KeyPair) : Except PairFault Bytes :=
  match k.coefficient? with
  | some coefficient =>
    if (k.document coefficient).length > Encoding.maxLength then .error .tooLong
    else .ok (k.document coefficient)
  | none => .error .noCoefficient

/-- Reads a key pair. The version must be zero; the three numbers at the end are not looked at. -/
def ofBytes (b : Bytes) : Except PairFault KeyPair :=
  if b.length > Encoding.maxLength then .error .notEncoded
  else
    match Encoding.readSequence 9 b with
    | some [0, n, e, d, p, q, _, _, _] =>
      let k : PairNumbers := ⟨n, e, d, p, q⟩
      if h : k.Valid then .ok ⟨k, h⟩ else .error .notValid
    | _ => .error .notEncoded

end KeyPair

end KeyBroker
