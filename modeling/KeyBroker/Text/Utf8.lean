import KeyBroker.Bytes

/-! # UTF-8

Texts as bytes. Reading goes character by character and says where and how it fails: a character is
cut off by the end, or a number of bytes is the longest start of a character that nothing can
complete.
-/

namespace KeyBroker.Text.Utf8

/-- The bytes of a text. -/
def encode (text : String) : Bytes := text.toList.flatMap String.utf8EncodeChar

/-- How bytes fail to be a text. -/
inductive Fault where
  | invalid (size index : Nat)
  | incomplete (index : Nat)
  deriving DecidableEq, Repr

/-- The failure in words. -/
def Fault.message : Fault → String
  | invalid size index => s!"invalid utf-8 sequence of {size} bytes from index {index}"
  | incomplete index => s!"incomplete utf-8 byte sequence from index {index}"

/-- What stands at the start of bytes: a character and its size, bytes that begin none, or a
character cut off by the end. -/
inductive Head where
  | scalar (c : Char) (size : Nat)
  | broken (size : Nat)
  | cut
  deriving DecidableEq, Repr

/-- Reads the `n` following bytes of a character. The next one lies between `low` and `high`, later
ones are continuation bytes; `size` bytes with the bits `value` are behind. -/
def follow : (n : Nat) → (low high : UInt8) → (value size : Nat) → Bytes → Head
  | 0, _, _, value, size, _ => .scalar (Char.ofNat value) size
  | _ + 1, _, _, _, _, [] => .cut
  | n + 1, low, high, value, size, b :: r =>
    if low ≤ b ∧ b ≤ high then follow n 0x80 0xbf (64 * value + (b.toNat - 0x80)) (size + 1) r
    else .broken size

/-- Reads one character. The bounds for the second byte keep out forms that are too long, surrogates
and numbers beyond the last code point. -/
def head (a : UInt8) (r : Bytes) : Head :=
  if a < 0x80 then .scalar (Char.ofNat a.toNat) 1
  else if a < 0xc2 then .broken 1
  else if a < 0xe0 then follow 1 0x80 0xbf (a.toNat - 0xc0) 1 r
  else if a < 0xf0 then
    follow 2 (if a = 0xe0 then 0xa0 else 0x80) (if a = 0xed then 0x9f else 0xbf)
      (a.toNat - 0xe0) 1 r
  else if a < 0xf5 then
    follow 3 (if a = 0xf0 then 0x90 else 0x80) (if a = 0xf4 then 0x8f else 0xbf)
      (a.toNat - 0xf0) 1 r
  else .broken 1

/-- Reads characters to the end; `done` are those already read, latest first. -/
def decodeFrom (index : Nat) (done : List Char) : Bytes → Except Fault (List Char)
  | [] => .ok done.reverse
  | a :: r =>
    match head a r with
    | .scalar c size => decodeFrom (index + size) (c :: done) (r.drop (size - 1))
    | .broken size => .error (.invalid size index)
    | .cut => .error (.incomplete index)
termination_by b => b.length
decreasing_by simp only [List.length_drop, List.length_cons]; omega

/-- The text with the given bytes. -/
def decode (b : Bytes) : Except Fault String := (decodeFrom 0 [] b).map String.ofList

/-- Reads characters to the end, with a replacement character for each run of bytes that is none. -/
def lossyFrom (done : List Char) : Bytes → List Char
  | [] => done.reverse
  | a :: r =>
    match head a r with
    | .scalar c size => lossyFrom (c :: done) (r.drop (size - 1))
    | .broken size => lossyFrom ('\ufffd' :: done) (r.drop (size - 1))
    | .cut => ('\ufffd' :: done).reverse
termination_by b => b.length
decreasing_by all_goals simp only [List.length_drop, List.length_cons]; omega

/-- Bytes shown as a text. -/
def lossy (b : Bytes) : String := String.ofList (lossyFrom [] b)

end KeyBroker.Text.Utf8
