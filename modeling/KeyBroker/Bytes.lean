/-! # Byte strings

Bytes are lists, numbers are read from them and written into them in either byte order. Main
statements: writing gives the asked width, reading undoes writing for a number that fits, and
writing undoes reading.
-/

namespace KeyBroker

/-- A byte string. -/
abbrev Bytes := List UInt8

namespace Bytes

/-- The number whose base-256 digits are `b`, least significant first. -/
def toNatLE : Bytes → Nat
  | [] => 0
  | b :: r => b.toNat + 256 * toNatLE r

/-- The `width` lowest base-256 digits of `n`, least significant first. -/
def ofNatLE : (width n : Nat) → Bytes
  | 0, _ => []
  | width + 1, n => UInt8.ofNat n :: ofNatLE width (n / 256)

/-- The number whose base-256 digits are `b`, most significant first. -/
def toNatBE (b : Bytes) : Nat := toNatLE b.reverse

/-- The `width` lowest base-256 digits of `n`, most significant first. -/
def ofNatBE (width n : Nat) : Bytes := (ofNatLE width n).reverse

/-- Byte-wise exclusive or, as long as the shorter of the two. -/
def xor (a b : Bytes) : Bytes := List.zipWith (· ^^^ ·) a b

@[simp] theorem length_ofNatLE (width n : Nat) : (ofNatLE width n).length = width := by
  induction width generalizing n with
  | zero => rfl
  | succ w ih => simp [ofNatLE, ih]

@[simp] theorem length_ofNatBE (width n : Nat) : (ofNatBE width n).length = width := by
  simp [ofNatBE]

theorem toNatLE_ofNatLE (width n : Nat) : toNatLE (ofNatLE width n) = n % (1 <<< (8 * width)) := by
  induction width generalizing n with
  | zero => simp [ofNatLE, toNatLE, Nat.mod_one]
  | succ w ih =>
    have wider : (1 <<< (8 * (w + 1)) : Nat) = 256 * (1 <<< (8 * w)) := by
      rw [Nat.mul_succ, Nat.shiftLeft_add, Nat.shiftLeft_eq _ 8, Nat.mul_comm]
    have split : n % (1 <<< (8 * (w + 1))) = n % 256 + 256 * (n / 256 % (1 <<< (8 * w))) := by
      rw [wider, Nat.mod_mul]
    rw [ofNatLE, toNatLE, ih, split, UInt8.toNat_ofNat']

theorem toNatBE_ofNatBE (width n : Nat) : toNatBE (ofNatBE width n) = n % (1 <<< (8 * width)) := by
  simp [toNatBE, ofNatBE, toNatLE_ofNatLE]

/-- The number of digits bounds the number. -/
theorem toNatLE_lt (b : Bytes) : toNatLE b < 1 <<< (8 * b.length) := by
  induction b with
  | nil => decide
  | cons x r ih =>
    have digit : x.toNat < 256 := x.toNat_lt
    have wider : (1 <<< (8 * (r.length + 1)) : Nat) = 256 * (1 <<< (8 * r.length)) := by
      rw [Nat.mul_succ, Nat.shiftLeft_add, Nat.shiftLeft_eq _ 8, Nat.mul_comm]
    rw [toNatLE, List.length_cons, wider]
    omega

/-- Digits are those of the number they stand for. -/
theorem ofNatLE_toNatLE (b : Bytes) : ofNatLE b.length (toNatLE b) = b := by
  induction b with
  | nil => rfl
  | cons x r ih =>
    have digit : x.toNat < 256 := x.toNat_lt
    have low : UInt8.ofNat (x.toNat + 256 * toNatLE r) = x := by
      rw [← UInt8.toNat_inj, UInt8.toNat_ofNat']
      omega
    have high : (x.toNat + 256 * toNatLE r) / 256 = toNatLE r := by omega
    rw [List.length_cons, toNatLE, ofNatLE, low, high, ih]

theorem ofNatBE_toNatBE (b : Bytes) : ofNatBE b.length (toNatBE b) = b := by
  have digits := ofNatLE_toNatLE b.reverse
  rw [List.length_reverse] at digits
  rw [ofNatBE, toNatBE, digits, List.reverse_reverse]

theorem length_xor (a b : Bytes) : (xor a b).length = min a.length b.length := by
  simp [xor]

/-- Masking twice by the same bytes restores what they cover. -/
theorem xor_xor_cancel (a b : Bytes) (h : a.length ≤ b.length) : xor (xor a b) b = a := by
  induction a generalizing b with
  | nil => simp [xor]
  | cons x r ih =>
    cases b with
    | nil => simp at h
    | cons y s =>
      have := ih s (by simpa using h)
      simp only [xor, List.zipWith_cons_cons] at this ⊢
      rw [this]
      rw [UInt8.xor_assoc, UInt8.xor_self, UInt8.xor_zero]

end Bytes

end KeyBroker
