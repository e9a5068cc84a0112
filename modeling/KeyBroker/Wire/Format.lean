import KeyBroker.Text.Quoted
import KeyBroker.Text.Utf8

/-! # The wire format

Values on the wire: words of four bytes, lengths of eight, all with the least significant byte
first; byte strings and texts behind their lengths; options and booleans as one byte; alternatives
behind their index. A format holds a writer and a reader side by side, and larger formats are made
from smaller ones. A reader takes a value off the front and leaves the rest.
-/

namespace KeyBroker.Wire

/-- How bytes fail to be a value. -/
inductive DecodeFault where
  | endOfInput
  | endOfText
  | badText (cause : Text.Utf8.Fault)
  | badIndex (index count : Nat)
  | badOption (tag : Nat)
  | badBool (tag : Nat)
  | unknownKind (name : String)
  deriving DecidableEq, Repr

/-- The failure in words. -/
def DecodeFault.message : DecodeFault → String
  | endOfInput => "io error: unexpected end of file"
  | endOfText => "io error: "
  | badText cause => s!"string is not valid utf8: {cause.message}"
  | badIndex index count =>
    "invalid value: integer \x60" ++ toString index ++ "\x60, expected variant index 0 <= i < "
      ++ toString count
  | badOption tag => s!"tag for enum is not valid, found {tag}"
  | badBool tag => s!"invalid u8 while decoding bool, expected 0 or 1, found {tag}"
  | unknownKind name => "Protocol error: unknown error kind " ++ Text.quote name

/-- A writer and a reader. -/
structure Format (α : Type) where
  write : α → Bytes
  read : Bytes → Except DecodeFault (α × Bytes)

namespace Format

variable {α β : Type}

/-! ## Numbers -/

/-- Takes `n` bytes off the front. -/
def takeBytes (fault : DecodeFault) (n : Nat) (b : Bytes) :
    Except DecodeFault (Bytes × Bytes) :=
  if n ≤ b.length then .ok (b.take n, b.drop n) else .error fault

/-- Numbers of `width` bytes. -/
def number (width : Nat) : Format Nat where
  write := Bytes.ofNatLE width
  read b := do
    let (digits, r) ← takeBytes .endOfInput width b
    return (Bytes.toNatLE digits, r)

/-- Words of 32 bits. -/
def word : Format UInt32 where
  write w := (number 4).write w.toNat
  read b := do
    let (n, r) ← (number 4).read b
    return (UInt32.ofNat n, r)

/-- Lengths. -/
def length : Format Nat := number 8

/-! ## Byte strings and texts -/

/-- Byte strings. -/
def bytes : Format Bytes where
  write b := length.write b.length ++ b
  read b := do
    let (n, r) ← length.read b
    takeBytes .endOfInput n r

/-- Texts. -/
def text : Format String where
  write s := bytes.write (Text.Utf8.encode s)
  read b := do
    let (n, r) ← length.read b
    let (content, r) ← takeBytes .endOfText n r
    match Text.Utf8.decode content with
    | .ok s => return (s, r)
    | .error cause => .error (.badText cause)

/-! ## Choices -/

/-- Booleans. -/
def bool : Format Bool where
  write v := [if v then 1 else 0]
  read
    | [] => .error .endOfInput
    | b :: r =>
      if b = 0 then .ok (false, r)
      else if b = 1 then .ok (true, r)
      else .error (.badBool b.toNat)

/-- Values that may be absent. -/
def option (f : Format α) : Format (Option α) where
  write
    | none => [0]
    | some a => 1 :: f.write a
  read
    | [] => .error .endOfInput
    | b :: r =>
      if b = 0 then .ok (none, r)
      else if b = 1 then (f.read r).map fun (a, r) => (some a, r)
      else .error (.badOption b.toNat)

/-- One of a list of values, by its place in the list. -/
def oneOf [BEq α] (values : List α) : Format α where
  write a := word.write (UInt32.ofNat (values.idxOf a))
  read b := do
    let (i, r) ← word.read b
    match values[i.toNat]? with
    | some a => return (a, r)
    | none => .error (.badIndex i.toNat values.length)

/-! ## Combinations -/

/-- One value after the other. -/
def pair (f : Format α) (g : Format β) : Format (α × β) where
  write := fun (a, b) => f.write a ++ g.write b
  read input := do
    let (a, r) ← f.read input
    let (b, r) ← g.read r
    return ((a, b), r)

/-- A format under other names. -/
def via (f : Format α) (forth : α → β) (back : β → α) : Format β where
  write b := f.write (back b)
  read input := (f.read input).map fun (a, r) => (forth a, r)

end Format

end KeyBroker.Wire
