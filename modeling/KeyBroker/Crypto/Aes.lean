import KeyBroker.Crypto.Words

/-! # The AES block cipher

Encryption of one block of four columns under a key schedule. The substitution is inversion in the
field of 256 elements followed by an affine map.
-/

namespace KeyBroker.Crypto.Aes

/-! ## Substitution -/

/-- Multiplication by `x` in the field of 256 elements. -/
def double (a : UInt8) : UInt8 := (a <<< 1) ^^^ (if a &&& 0x80 = 0 then 0 else 0x1b)

/-- Multiplication in the field, over the `n` lowest bits of the second factor. -/
def times : Nat → UInt8 → UInt8 → UInt8
  | 0, _, _ => 0
  | n + 1, a, b => (if b &&& 1 = 0 then 0 else a) ^^^ times n (double a) (b >>> 1)

/-- The inverse of a field element, zero for zero: its 254th power. -/
def inverse (a : UInt8) : UInt8 :=
  let square (x : UInt8) := times 8 x x
  let a₂ := square a
  let a₃ := times 8 a₂ a
  let a₁₂ := square (square a₃)
  let a₁₅ := times 8 a₁₂ a₃
  let a₂₄₀ := square (square (square (square a₁₅)))
  times 8 a₂₄₀ (times 8 a₁₂ a₂)

/-- The substitution of one byte. -/
def substitute (a : UInt8) : UInt8 :=
  let i := inverse a
  let turn (n : UInt8) := (i <<< n) ||| (i >>> (8 - n))
  i ^^^ turn 1 ^^^ turn 2 ^^^ turn 3 ^^^ turn 4 ^^^ 0x63

/-- The substitution as a table. -/
def box : Vector UInt8 256 := Vector.ofFn fun i => substitute i.val.toUInt8

/-- The substitution of one byte by the table. -/
def sub (a : UInt8) : UInt8 := box.get ⟨a.toNat, a.toNat_lt⟩

/-- Substitution followed by the first column of the mixing matrix, as a table. -/
def mixBox : Vector UInt32 256 := Vector.ofFn fun i =>
  let s := substitute i.val.toUInt8
  word32 (double s) s s (double s ^^^ s)

/-- Substitution and mixing of one byte at the top of a column. -/
def subMix (a : UInt8) : UInt32 := mixBox.get ⟨a.toNat, a.toNat_lt⟩

/-- The substitution of each byte of a word. -/
def subWord (w : UInt32) : UInt32 :=
  word32 (sub (w >>> 24).toUInt8) (sub (w >>> 16).toUInt8) (sub (w >>> 8).toUInt8) (sub w.toUInt8)

/-! ## Blocks -/

/-- Four columns of four bytes. -/
structure Block where
  c₀ : UInt32
  c₁ : UInt32
  c₂ : UInt32
  c₃ : UInt32
  deriving DecidableEq, Repr

namespace Block

/-- Adds a round key. -/
def add (a b : Block) : Block :=
  ⟨a.c₀ ^^^ b.c₀, a.c₁ ^^^ b.c₁, a.c₂ ^^^ b.c₂, a.c₃ ^^^ b.c₃⟩

/-- The sixteen bytes of a block. -/
def bytes (b : Block) : Bytes := bytes32 b.c₀ ++ bytes32 b.c₁ ++ bytes32 b.c₂ ++ bytes32 b.c₃

/-- The blocks whose columns are the given words; words that fill no whole block are left out. -/
def ofWords : List UInt32 → List Block
  | a :: b :: c :: d :: r => ⟨a, b, c, d⟩ :: ofWords r
  | _ => []

@[simp] theorem length_bytes (b : Block) : b.bytes.length = 16 := rfl

end Block

/-- A column after substitution, shift of rows and mixing; the four words are the columns from which
its rows come. -/
def mixColumn (r₀ r₁ r₂ r₃ : UInt32) : UInt32 :=
  subMix (r₀ >>> 24).toUInt8 ^^^ rotr32 (subMix (r₁ >>> 16).toUInt8) 8
    ^^^ rotr32 (subMix (r₂ >>> 8).toUInt8) 16 ^^^ rotr32 (subMix r₃.toUInt8) 24

/-- A column after substitution and shift of rows. -/
def shiftColumn (r₀ r₁ r₂ r₃ : UInt32) : UInt32 :=
  word32 (sub (r₀ >>> 24).toUInt8) (sub (r₁ >>> 16).toUInt8) (sub (r₂ >>> 8).toUInt8)
    (sub r₃.toUInt8)

/-- A round but the last. -/
def round (s key : Block) : Block :=
  Block.add ⟨mixColumn s.c₀ s.c₁ s.c₂ s.c₃, mixColumn s.c₁ s.c₂ s.c₃ s.c₀,
    mixColumn s.c₂ s.c₃ s.c₀ s.c₁, mixColumn s.c₃ s.c₀ s.c₁ s.c₂⟩ key

/-- The last round, which does not mix. -/
def lastRound (s key : Block) : Block :=
  Block.add ⟨shiftColumn s.c₀ s.c₁ s.c₂ s.c₃, shiftColumn s.c₁ s.c₂ s.c₃ s.c₀,
    shiftColumn s.c₂ s.c₃ s.c₀ s.c₁, shiftColumn s.c₃ s.c₀ s.c₁ s.c₂⟩ key

/-! ## Key schedule -/

/-- The next word of the key schedule; `words` are those before it, latest first. -/
def nextKeyWord (keyWords : Nat) (words : List UInt32) : UInt32 :=
  let i := words.length
  let last := words.headD 0
  let turned :=
    if i % keyWords = 0 then
      subWord (rotl32 last 8) ^^^ ((Nat.repeat double (i / keyWords - 1) 1).toUInt32 <<< 24)
    else if keyWords > 6 ∧ i % keyWords = 4 then subWord last
    else last
  words.getD (keyWords - 1) 0 ^^^ turned

/-- Words before which the given ones stand, up to a total of `n` more. -/
def expandWords (keyWords : Nat) : Nat → List UInt32 → List UInt32
  | 0, words => words
  | n + 1, words => expandWords keyWords n (nextKeyWord keyWords words :: words)

/-- The round keys of a key of four or eight words. -/
def schedule (key : Bytes) : List Block :=
  let words := words32 key
  let n := words.length
  Block.ofWords (expandWords n (4 * (n + 7) - n) words.reverse).reverse

/-- Encrypts a block under the round keys. -/
def encrypt (keys : List Block) (b : Block) : Block :=
  match keys with
  | [] => b
  | first :: rest =>
    let s := rest.dropLast.foldl round (b.add first)
    match rest.getLast? with
    | some last => lastRound s last
    | none => s

end KeyBroker.Crypto.Aes
