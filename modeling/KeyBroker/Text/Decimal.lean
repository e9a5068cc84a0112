/-! # Decimal numbers

A numeral is one or more ASCII digits. Main statement: the digits of a number read back as that
number.
-/

namespace KeyBroker.Text

/-- The value of a numeral. -/
def numeral? (cs : List Char) : Option Nat :=
  if !cs.isEmpty && cs.all Char.isDigit then some (Nat.ofDigitChars 10 cs 0) else none

theorem isDigit_toDigits (n : Nat) : ∀ c ∈ Nat.toDigits 10 n, c.isDigit = true := fun _ hc =>
  Nat.isDigit_of_mem_toDigits (by decide) (by decide) hc

theorem numeral?_toDigits (n : Nat) : numeral? (Nat.toDigits 10 n) = some n := by
  have digits : (Nat.toDigits 10 n).all Char.isDigit = true :=
    List.all_eq_true.mpr (isDigit_toDigits n)
  have value : Nat.ofDigitChars 10 (Nat.toDigits 10 n) 0 = n :=
    Nat.ofDigitChars_toDigits (by decide) (by decide)
  simp [numeral?, digits, value, Nat.toDigits_ne_nil]

/-- The digits of a number start with a digit. -/
theorem toDigits_cons (n : Nat) : ∃ d more, Nat.toDigits 10 n = d :: more ∧ d.isDigit = true := by
  obtain ⟨d, more, h⟩ := List.exists_cons_of_ne_nil (@Nat.toDigits_ne_nil n 10)
  exact ⟨d, more, h, isDigit_toDigits n d (h ▸ List.mem_cons_self)⟩

/-- They start with zero only if that is the number. -/
theorem toDigits_head (n : Nat) :
    Nat.toDigits 10 n = ['0']
      ∨ ∃ d rest, Nat.toDigits 10 n = d :: rest ∧ d.isDigit = true ∧ d ≠ '0' := by
  induction n using Nat.strongRecOn with
  | ind n ih =>
    by_cases hsmall : n < 10
    · have hone : ∀ n < 10, Nat.digitChar n = '0' ∨ (Nat.digitChar n).isDigit = true
          ∧ Nat.digitChar n ≠ '0' := by decide
      rw [Nat.toDigits_of_lt_base hsmall]
      rcases hone n hsmall with h | ⟨hdigit, hne⟩
      · exact Or.inl (by rw [h])
      · exact Or.inr ⟨_, [], rfl, hdigit, hne⟩
    · -- the first digit is that of the tenth part, which is not zero
      have hlarge : 10 ≤ n := by omega
      rw [Nat.toDigits_of_base_le (by decide) hlarge]
      rcases ih (n / 10) (by omega) with h | ⟨d, rest, h, hdigit, hne⟩
      · have hvalue : Nat.ofDigitChars 10 (Nat.toDigits 10 (n / 10)) 0 = n / 10 :=
          Nat.ofDigitChars_toDigits (by decide) (by decide)
        rw [h] at hvalue
        have hzero : Nat.ofDigitChars 10 ['0'] 0 = 0 := by decide
        omega
      · exact Or.inr ⟨d, _, by rw [h]; rfl, hdigit, hne⟩

/-- A text without a plus sign at its start. -/
def dropPlus : List Char → List Char
  | '+' :: r => r
  | cs => cs

/-- A numeral, with or without a plus sign, whose value fits 32 bits. -/
def word32? (cs : List Char) : Option UInt32 :=
  match numeral? (dropPlus cs) with
  | some n => if n < UInt32.size then some (UInt32.ofNat n) else none
  | none => none

end KeyBroker.Text
