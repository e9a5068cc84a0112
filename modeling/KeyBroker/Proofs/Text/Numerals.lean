import Mathlib.Algebra.Group.Nat.Defs
import KeyBroker.Text.Blank
import KeyBroker.Text.Decimal

/-! # Numerals

  A numeral is told by its digits and their places, so more digits on either side never make
  it smaller. A number of 32 bits is a numeral that fits, with or without a plus sign in front.
-/

namespace KeyBroker.Text

/-! ### Values -/

/-- One or more ASCII digits and their value: a digit counts as often as ten to the number of
    digits behind it says. -/
inductive Numeral : List Char → Nat → Prop where
  | digit {c : Char} (hc : c.isDigit = true) : Numeral [c] (c.toNat - '0'.toNat)
  | more {c : Char} (hc : c.isDigit = true) {cs : List Char} {n : Nat} (rest : Numeral cs n) :
      Numeral (c :: cs) (10 ^ cs.length * (c.toNat - '0'.toNat) + n)

theorem numeral_iff {cs : List Char} {n : Nat} :
    Numeral cs n ↔ cs ≠ [] ∧ (∀ c ∈ cs, c.isDigit = true) ∧ Nat.ofDigitChars 10 cs 0 = n := by
  -- the first digit is the value that the digits behind it are added to
  have hcons : ∀ (c : Char) (rest : List Char), Nat.ofDigitChars 10 (c :: rest) 0
      = 10 ^ rest.length * (c.toNat - '0'.toNat) + Nat.ofDigitChars 10 rest 0 := fun c rest => by
    rw [Nat.ofDigitChars_cons, Nat.ofDigitChars_eq_ofDigitChars_zero, Nat.mul_zero, Nat.zero_add]
  constructor
  · intro h
    induction h with
    | digit hc => exact ⟨nofun, by simpa using hc, by simp [hcons]⟩
    | more hc rest ih =>
      obtain ⟨-, hdigits, rfl⟩ := ih
      exact ⟨nofun, List.forall_mem_cons.mpr ⟨hc, hdigits⟩, hcons _ _⟩
  · rintro ⟨hne, hdigits, rfl⟩
    induction cs with
    | nil => exact absurd rfl hne
    | cons c rest ih =>
      obtain ⟨hc, hrest⟩ := List.forall_mem_cons.mp hdigits
      by_cases hnil : rest = []
      · subst hnil
        simpa [hcons] using Numeral.digit hc
      · rw [hcons]
        exact .more hc (ih hnil hrest)

theorem Numeral.ne_nil {cs : List Char} {n : Nat} (h : Numeral cs n) : cs ≠ [] :=
  (numeral_iff.mp h).1

theorem Numeral.isDigit {cs : List Char} {n : Nat} (h : Numeral cs n) :
    ∀ c ∈ cs, c.isDigit = true :=
  (numeral_iff.mp h).2.1

theorem numeral?_eq_some_iff {cs : List Char} {n : Nat} :
    numeral? cs = some n ↔ Numeral cs n := by
  rw [numeral_iff, numeral?]
  simp [and_assoc]

/-- More digits on either side do not make a numeral smaller. -/
theorem Numeral.le_of_infix {part cs : List Char} {m n : Nat} (hpart : Numeral part m)
    (hcs : Numeral cs n) (h : part <:+: cs) : m ≤ n := by
  obtain ⟨-, -, rfl⟩ := numeral_iff.mp hpart
  obtain ⟨-, -, rfl⟩ := numeral_iff.mp hcs
  obtain ⟨before, after, rfl⟩ := h
  rw [Nat.ofDigitChars_append, Nat.ofDigitChars_append]
  calc Nat.ofDigitChars 10 part 0
      ≤ Nat.ofDigitChars 10 part (Nat.ofDigitChars 10 before 0) := by
        rw [@Nat.ofDigitChars_eq_ofDigitChars_zero part (Nat.ofDigitChars 10 before 0)]
        exact Nat.le_add_left _ _
    _ ≤ 10 ^ after.length * Nat.ofDigitChars 10 part (Nat.ofDigitChars 10 before 0) :=
        Nat.le_mul_of_pos_left _ (Nat.pow_pos (by decide))
    _ ≤ Nat.ofDigitChars 10 after (Nat.ofDigitChars 10 part (Nat.ofDigitChars 10 before 0)) := by
        rw [@Nat.ofDigitChars_eq_ofDigitChars_zero after]
        exact Nat.le_add_right _ _

theorem isBlank_of_isDigit {c : Char} (h : c.isDigit = true) : isBlank c = false := by
  have hbounds : 48 ≤ c.toNat ∧ c.toNat ≤ 57 := Char.isDigit_iff_toNat.mp h
  simp only [isBlank, Bool.or_eq_false_iff, Bool.and_eq_false_iff, beq_eq_false_iff_ne,
    decide_eq_false_iff_not]
  omega

/-! ### Numbers of 32 bits -/

/-- A plus sign or nothing. -/
def Sign (cs : List Char) : Prop := cs = [] ∨ cs = ['+']

theorem trimmed_signed {sign digits : List Char} {n : Nat} (hsign : Sign sign)
    (hdigits : Numeral digits n) : Trimmed (sign ++ digits) := by
  refine .of_forall (by simp [hdigits.ne_nil]) (List.forall_mem_append.mpr ⟨?_, fun c hc => ?_⟩)
  · obtain rfl | rfl := hsign
    · exact nofun
    · exact List.forall_mem_singleton.mpr rfl
  · exact isBlank_of_isDigit (hdigits.isDigit c hc)

theorem exists_eq_dropPlus (cs : List Char) : ∃ sign, Sign sign ∧ cs = sign ++ dropPlus cs := by
  unfold dropPlus
  split
  · exact ⟨['+'], Or.inr rfl, rfl⟩
  · exact ⟨[], Or.inl rfl, rfl⟩

theorem dropPlus_append {sign digits : List Char} {n : Nat} (hsign : Sign sign)
    (hdigits : Numeral digits n) : dropPlus (sign ++ digits) = digits := by
  obtain rfl | rfl := hsign
  · unfold dropPlus
    split
    · next rest heq =>
      have hmem : '+' ∈ digits := by
        rw [List.nil_append] at heq
        exact heq ▸ List.mem_cons_self
      cases hdigits.isDigit '+' hmem
    · rfl
  · rfl

/-- A number of 32 bits is a numeral, with or without a plus sign, whose value fits. -/
theorem word32?_eq_some_iff {cs : List Char} {id : UInt32} :
    word32? cs = some id ↔ ∃ sign digits n, Sign sign ∧ Numeral digits n ∧ n < 2 ^ 32
      ∧ cs = sign ++ digits ∧ id = UInt32.ofNat n := by
  constructor
  · intro h
    obtain ⟨sign, hsign, hcs⟩ := exists_eq_dropPlus cs
    cases hvalue : numeral? (dropPlus cs) with
    | none => simp [word32?, hvalue] at h
    | some n =>
      by_cases hfits : n < UInt32.size
      · simp only [word32?, hvalue, if_pos hfits, Option.some.injEq] at h
        exact ⟨sign, dropPlus cs, n, hsign, numeral?_eq_some_iff.mp hvalue, hfits, hcs, h.symm⟩
      · simp [word32?, hvalue, hfits] at h
  · rintro ⟨sign, digits, n, hsign, hdigits, hfits, rfl, rfl⟩
    have hsize : n < UInt32.size := hfits
    simp only [word32?, dropPlus_append hsign hdigits, numeral?_eq_some_iff.mpr hdigits,
      if_pos hsize]

end KeyBroker.Text
