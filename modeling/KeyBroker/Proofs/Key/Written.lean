import KeyBroker.Key.Encoding

/-! # Key pairs read back

  A key pair that has a written form is what that form is read as. The distinguished encoding
  rules leave a writer no choice, and the reader refuses every other form, so each step of the
  proof is that the shortest form is what the reader asks for: of a length, of a number, of a
  sequence of numbers. Lengths are limited, because the count of their bytes is itself one
  byte; the parts of a document that is not too long are not, either.
-/

namespace KeyBroker

namespace Encoding

/-! ### Shortest forms -/

theorem length_shortest (n : Nat) : (shortest n).length = n.log2 / 8 + 1 :=
  Bytes.length_ofNatBE _ _

/-- The shortest form has room for the number. -/
theorem toNatBE_shortest (n : Nat) : Bytes.toNatBE (shortest n) = n := by
  rw [shortest, Bytes.toNatBE_ofNatBE, Nat.shiftLeft_eq, Nat.one_mul]
  apply Nat.mod_eq_of_lt
  calc n < 2 ^ (n.log2 + 1) := Nat.lt_log2_self
    _ ≤ 2 ^ (8 * (n.log2 / 8 + 1)) := Nat.pow_le_pow_right (by decide) (by omega)

/-- The first of `width + 1` bytes of a number is what is left of it without the others. -/
theorem headD_ofNatBE (width n : Nat) :
    (Bytes.ofNatBE (width + 1) n).headD 0 = UInt8.ofNat (n >>> (8 * width)) := by
  have hlast : ∀ width n, (Bytes.ofNatLE (width + 1) n).getLast?
      = some (UInt8.ofNat (n >>> (8 * width))) := by
    intro width
    induction width with
    | zero => intro n; simp [Bytes.ofNatLE]
    | succ width ih =>
      intro n
      have hshift : (n / 256) >>> (8 * width) = n >>> (8 * (width + 1)) := by
        rw [Nat.mul_succ, Nat.add_comm, Nat.shiftRight_add, Nat.shiftRight_eq_div_pow n 8]
      rw [Bytes.ofNatLE, List.getLast?_cons, ih, Option.getD_some, hshift]
  rw [Bytes.ofNatBE, List.headD_eq_head?_getD, List.head?_reverse, hlast]
  rfl

/-- The shortest form of a number does not start with zero, unless the number is zero. -/
theorem headD_shortest_ne_zero {n : Nat} (h : n ≠ 0) : (shortest n).headD 0 ≠ 0 := by
  have hlow : 2 ^ (8 * (n.log2 / 8)) ≤ n := by
    calc 2 ^ (8 * (n.log2 / 8)) ≤ 2 ^ n.log2 := Nat.pow_le_pow_right (by decide) (by omega)
      _ ≤ n := Nat.log2_self_le h
  have hhigh : n < 2 ^ (8 * (n.log2 / 8)) * 256 := by
    calc n < 2 ^ (n.log2 + 1) := Nat.lt_log2_self
      _ ≤ 2 ^ (8 * (n.log2 / 8) + 8) := Nat.pow_le_pow_right (by decide) (by omega)
      _ = 2 ^ (8 * (n.log2 / 8)) * 256 := Nat.pow_add ..
  have hpositive : 0 < 2 ^ (8 * (n.log2 / 8)) := Nat.pow_pos (by decide)
  have hfirst : 0 < n / 2 ^ (8 * (n.log2 / 8)) := Nat.div_pos hlow hpositive
  have hbyte : n / 2 ^ (8 * (n.log2 / 8)) < 256 := by
    rw [Nat.div_lt_iff_lt_mul hpositive, Nat.mul_comm]
    exact hhigh
  intro hzero
  rw [shortest, headD_ofNatBE, Nat.shiftRight_eq_div_pow] at hzero
  have hvalue := congrArg UInt8.toNat hzero
  rw [UInt8.toNat_ofNat_of_lt' hbyte] at hvalue
  exact absurd hvalue (Nat.ne_of_gt hfirst)

/-! ### Lengths -/

/-- The lengths that occur have far fewer bytes than a count can say. -/
def lengthLimit : Nat := 1 <<< 64

theorem log2_le_of_lt {n bits : Nat} (h : n < 1 <<< bits) : n.log2 ≤ bits := by
  rw [Nat.shiftLeft_eq, Nat.one_mul] at h
  by_cases hzero : n = 0
  · subst hzero
    exact Nat.zero_le bits
  · exact Nat.le_of_lt ((Nat.log2_lt hzero).mpr h)

theorem length_shortest_of_lt {n : Nat} (h : n < lengthLimit) : (shortest n).length < 128 := by
  have hbits : n.log2 ≤ 64 := log2_le_of_lt h
  rw [length_shortest]
  omega

/-- A length is read back, with what follows it. -/
theorem readLength_lengthBytes {n : Nat} (h : n < lengthLimit) (rest : Bytes) :
    readLength (lengthBytes n ++ rest) = some (n, rest) := by
  by_cases hshort : n < 128
  · have hbyte : n < 256 := by omega
    have hfirst : (UInt8.ofNat n).toNat = n := UInt8.toNat_ofNat_of_lt' hbyte
    have hbelow : UInt8.ofNat n < 0x80 := by
      rw [UInt8.lt_iff_toNat_lt, hfirst]
      exact hshort
    rw [lengthBytes, if_pos hshort]
    show readLength (UInt8.ofNat n :: rest) = _
    rw [readLength, if_pos hbelow, hfirst]
  · -- the first byte counts the bytes of the shortest form
    have hcount := length_shortest_of_lt h
    have hbyte : 128 + (shortest n).length < 256 := by omega
    have hfirst : (UInt8.ofNat (128 + (shortest n).length)).toNat = 128 + (shortest n).length :=
      UInt8.toNat_ofNat_of_lt' hbyte
    have habove : ¬ UInt8.ofNat (128 + (shortest n).length) < 0x80 := by
      rw [UInt8.lt_iff_toNat_lt, hfirst]
      exact Nat.not_lt.mpr (Nat.le_add_right 128 _)
    have hminus : 128 + (shortest n).length - 128 = (shortest n).length := by omega
    have hhead : (shortest n).headD 0 ≠ 0 := headD_shortest_ne_zero (by omega)
    rw [lengthBytes, if_neg hshort]
    show readLength (UInt8.ofNat (128 + (shortest n).length) :: (shortest n ++ rest)) = _
    rw [readLength, if_neg habove]
    simp only [hfirst, hminus, List.take_left', List.drop_left', toNatBE_shortest]
    rw [if_pos ⟨trivial, by omega, hhead⟩]

/-- A value is read back, with what follows it. -/
theorem readValue_value (tag : UInt8) {content : Bytes} (h : content.length < lengthLimit)
    (rest : Bytes) : readValue tag (value tag content ++ rest) = some (content, rest) := by
  have hlength := readLength_lengthBytes h (content ++ rest)
  show readValue tag (tag :: (lengthBytes content.length ++ content) ++ rest) = _
  rw [List.cons_append, List.append_assoc, readValue, if_pos rfl, hlength]
  simp

/-! ### Numbers -/

/-- The content of a number. -/
def digitsOf (n : Nat) : Bytes :=
  if (shortest n).headD 0 < 0x80 then shortest n else 0 :: shortest n

/-- A zero in front does not count. -/
theorem toNatBE_cons_zero (digits : Bytes) : Bytes.toNatBE (0 :: digits) = Bytes.toNatBE digits := by
  have hlast : ∀ b : Bytes, Bytes.toNatLE (b ++ [0]) = Bytes.toNatLE b := by
    intro b
    induction b with
    | nil => rfl
    | cons x r ih => rw [List.cons_append, Bytes.toNatLE, ih, Bytes.toNatLE]
  rw [Bytes.toNatBE, List.reverse_cons, hlast]
  rfl

/-- A number is what its content stands for. -/
theorem integerOf_digitsOf (n : Nat) : integerOf (digitsOf n) = some n := by
  have hvalue := toNatBE_shortest n
  have hlength := length_shortest n
  unfold digitsOf
  split
  · next hsign =>
    cases hdigits : shortest n with
    | nil =>
      rw [hdigits] at hlength
      cases hlength
    | cons b more =>
      rw [hdigits] at hsign hvalue hlength
      cases more with
      | nil =>
        have hone : Bytes.toNatBE [b] = b.toNat := by simp [Bytes.toNatBE, Bytes.toNatLE]
        have hbelow : b < 0x80 := hsign
        rw [integerOf, if_pos hbelow, ← hone, hvalue]
      | cons c more =>
        -- there are two bytes or more, so the number is not zero and its first byte is not
        have hne : n ≠ 0 := by
          rintro rfl
          simp at hlength
        have hfirst : b ≠ 0 := by
          have hhead := headD_shortest_ne_zero hne
          rw [hdigits] at hhead
          exact hhead
        have hplain : ¬ (b ≥ 0x80 ∨ (b = 0 ∧ c < 0x80)) := by
          rintro (hhigh | ⟨hzero, -⟩)
          · exact absurd hsign (UInt8.not_lt.mpr hhigh)
          · exact hfirst hzero
        rw [integerOf, if_neg hplain, hvalue]
  · next hsign =>
    cases hdigits : shortest n with
    | nil =>
      rw [hdigits] at hlength
      cases hlength
    | cons c more =>
      rw [hdigits] at hsign hvalue
      have hplain : ¬ ((0 : UInt8) ≥ 0x80 ∨ ((0 : UInt8) = 0 ∧ c < 0x80)) := by
        rintro (hhigh | ⟨-, hlow⟩)
        · exact absurd hhigh (by decide)
        · exact hsign hlow
      rw [integerOf, if_neg hplain, toNatBE_cons_zero, hvalue]

theorem length_value (tag : UInt8) (content : Bytes) :
    (value tag content).length
      = 1 + (lengthBytes content.length).length + content.length := by
  rw [value, List.cons_append, List.length_cons, List.length_append]
  omega

/-- A value is longer than its content. -/
theorem length_lt_value (tag : UInt8) (content : Bytes) :
    content.length < (value tag content).length := by
  rw [length_value]
  omega

/-- A number is read back, with what follows it. -/
theorem readInteger_integer {n : Nat} (h : (integer n).length < lengthLimit) (rest : Bytes) :
    readInteger (integer n ++ rest) = some (n, rest) := by
  have hdigits : (digitsOf n).length < lengthLimit :=
    Nat.lt_trans (length_lt_value integerTag (digitsOf n)) h
  have hread := readValue_value integerTag hdigits rest
  show readInteger (value integerTag (digitsOf n) ++ rest) = _
  rw [readInteger, hread]
  simp only [integerOf_digitsOf]
  rfl

/-- Numbers are read back, one after the other. -/
theorem readIntegers_flatMap {ns : List Nat} (h : (ns.flatMap integer).length < lengthLimit) :
    readIntegers ns.length (ns.flatMap integer) = some ns := by
  induction ns with
  | nil => rfl
  | cons n rest ih =>
    rw [List.flatMap_cons, List.length_append] at h
    have hrest := ih (by omega)
    rw [List.flatMap_cons, List.length_cons, readIntegers, readInteger_integer (by omega)]
    simp only [hrest]
    rfl

/-- A sequence of numbers is read back. -/
theorem readSequence_integers {ns : List Nat} (h : (integers ns).length < lengthLimit) :
    readSequence ns.length (integers ns) = some ns := by
  have hcontent : (ns.flatMap integer).length < lengthLimit :=
    Nat.lt_trans (length_lt_value sequenceTag _) h
  have hread := readValue_value sequenceTag hcontent []
  rw [List.append_nil] at hread
  rw [readSequence, integers, hread]
  exact readIntegers_flatMap hcontent

theorem lt_lengthLimit {n : Nat} (h : n ≤ maxLength) : n < lengthLimit :=
  Nat.lt_of_le_of_lt h (by decide)

end Encoding

/-! ### Key pairs -/

namespace KeyPair

variable {k : KeyPair}

/-- Exactly for coprime factors there is a coefficient. -/
theorem exists_coefficient_iff :
    (∃ coefficient, k.coefficient? = some coefficient) ↔ k.prime₁.Coprime k.prime₂ := by
  rw [← Option.isSome_iff_exists, coefficient?, Crypto.inverse?_isSome, Nat.gcd_comm]

/-- What is read as a key pair is a sequence of its numbers, and not too long. The three at the
    end do not matter. -/
theorem ofBytes_eq_ok_iff {b : Bytes} :
    ofBytes b = .ok k
      ↔ b.length ≤ Encoding.maxLength
        ∧ ∃ x y z, Encoding.readSequence 9 b = some (k.listed x y z) := by
  unfold ofBytes
  constructor
  · intro h
    split at h
    · cases h
    · next hlength =>
      refine ⟨Nat.not_lt.mp hlength, ?_⟩
      split at h
      · next n e d p q x y z hread =>
        dsimp only at h
        split at h
        · next hvalid =>
          obtain rfl := Except.ok.inj h
          exact ⟨x, y, z, hread⟩
        · cases h
      · cases h
  · rintro ⟨hlength, x, y, z, hread⟩
    rw [if_neg (Nat.not_lt.mpr hlength), hread]
    -- the reader asks of the numbers what holds of every pair
    exact dif_pos k.valid

/-- A pair is written if its factors have a coefficient and the document is not too long. -/
theorem privateBytes_eq_ok_iff {bytes : Bytes} :
    k.privateBytes = .ok bytes
      ↔ bytes.length ≤ Encoding.maxLength ∧ ∃ coefficient, k.coefficient? = some coefficient
          ∧ bytes = k.document coefficient := by
  unfold privateBytes
  constructor
  · intro h
    split at h
    · next coefficient hcoefficient =>
      split at h
      · cases h
      · next hlength =>
        obtain rfl := Except.ok.inj h
        exact ⟨Nat.not_lt.mp hlength, coefficient, hcoefficient, rfl⟩
    · cases h
  · rintro ⟨hlength, coefficient, hcoefficient, rfl⟩
    simp only [hcoefficient]
    rw [if_neg (Nat.not_lt.mpr hlength)]

/-- The numbers are read as the key pair, whatever the three at the end are. -/
theorem ofBytes_integers {x y z : Nat}
    (hlength : (Encoding.integers (k.listed x y z)).length ≤ Encoding.maxLength) :
    ofBytes (Encoding.integers (k.listed x y z)) = .ok k :=
  ofBytes_eq_ok_iff.mpr ⟨hlength, x, y, z,
    Encoding.readSequence_integers (Encoding.lt_lengthLimit hlength)⟩

/-- A key pair that has a written form is what that form is read as. -/
theorem ofBytes_of_privateBytes {bytes : Bytes} (h : k.privateBytes = .ok bytes) :
    ofBytes bytes = .ok k := by
  obtain ⟨hlength, coefficient, hcoefficient, rfl⟩ := privateBytes_eq_ok_iff.mp h
  exact ofBytes_integers hlength

end KeyPair

end KeyBroker
