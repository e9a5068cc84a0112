import KeyBroker.Json.Reader
import KeyBroker.Text.Decimal

/-! # Texts and numbers read back

  A text is written character by character: most characters stand for themselves, some are
  written as an escape, and each written form is taken as a whole by the reader and gives
  its character back. A number is written in digits, and read up to what is none; what
  stands behind it is nothing, a comma or the end of a line.
-/

namespace KeyBroker.Json

/-! ### Texts -/

/-- A hexadecimal digit has the value that it stands for. -/
theorem hexValue?_hexDigit {n : Nat} (h : n < 16) : Text.hexValue? (hexDigit n) = some n := by
  have hall : ∀ n < 16, Text.hexValue? (hexDigit n) = some n := by decide
  exact hall n h

/-- The escape of a control gives its number. -/
theorem hexUnit?_control {n : Nat} (h : n < 0x20) :
    hexUnit? '0' '0' (hexDigit (n / 16)) (hexDigit (n % 16)) = some n := by
  -- two of the four digits are zero
  have hhigh := hexValue?_hexDigit (show n / 16 < 16 by omega)
  have hlow := hexValue?_hexDigit (show n % 16 < 16 by omega)
  have hzero : Text.hexValue? '0' = some 0 := by decide
  simp only [hexUnit?, hhigh, hlow, hzero, bind, Option.bind]
  congr 1
  omega

/-- The ways to write a character: behind a stroke and in short, behind a stroke and by its
    number, or as it is. -/
inductive Escaped (c : Char) : List Char → Prop where
  | short (letter : Char) (hletter : letter ≠ 'u') (hshort : shortEscape? letter = some c) :
    Escaped c ['\\', letter]
  | numbered (hcontrol : c.toNat < 0x20) :
    Escaped c ['\\', 'u', '0', '0', hexDigit (c.toNat / 16), hexDigit (c.toNat % 16)]
  | plain (hquote : c ≠ '"') (hstroke : c ≠ '\\') (hprinted : ¬ c.toNat < 0x20) : Escaped c [c]

theorem escaped_escapeChar (c : Char) : Escaped c (escapeChar c) := by
  unfold escapeChar
  split
  · next h => subst h; exact .short '"' (by decide) rfl
  split
  · next h => subst h; exact .short '\\' (by decide) rfl
  split
  · next h => subst h; exact .short 'b' (by decide) rfl
  split
  · next h => subst h; exact .short 'f' (by decide) rfl
  split
  · next h => subst h; exact .short 'n' (by decide) rfl
  split
  · next h => subst h; exact .short 'r' (by decide) rfl
  split
  · next h => subst h; exact .short 't' (by decide) rfl
  split
  · next h => exact .numbered h
  · next hquote hstroke _ _ _ _ _ hprinted => exact .plain hquote hstroke hprinted

/-- A character as it is written is read as it is written. -/
theorem Escaped.readText {c : Char} {written : List Char} (h : Escaped c written)
    (done rest : List Char) :
    readText done (written ++ rest) = Json.readText (written.reverse ++ done) rest := by
  cases h with
  | short letter hletter hshort =>
    show Json.readText done ('\\' :: letter :: rest) = _
    rw [Json.readText]
    · rw [hshort]
      rfl
    · intro _ _ _ _ _ hu
      exact absurd hu hletter
  | numbered hcontrol =>
    show Json.readText done ('\\' :: 'u' :: '0' :: '0' :: _ :: _ :: rest) = _
    rw [Json.readText, hexUnit?_control hcontrol]
    rfl
  | plain hquote hstroke hprinted =>
    show Json.readText done (c :: rest) = _
    rw [Json.readText]
    · rw [if_neg (by simp only [not_or]; exact ⟨hprinted, hstroke⟩)]
      rfl
    · exact hquote
    · intro _ _ _ _ _ hstroke' _
      exact absurd hstroke' hstroke
    · intro _ _ hstroke' _
      exact absurd hstroke' hstroke

/-- And what it stands for is the character. -/
theorem Escaped.unescape {c : Char} {written : List Char} (h : Escaped c written)
    (done rest : List Char) :
    unescapeFrom done (written ++ rest) = unescapeFrom (c :: done) rest := by
  cases h with
  | short letter hletter hshort =>
    show unescapeFrom done ('\\' :: letter :: rest) = _
    rw [unescapeFrom]
    · rw [hshort]
    · intro _ _ _ _ _ hu
      exact absurd hu hletter
  | numbered hcontrol =>
    show unescapeFrom done ('\\' :: 'u' :: '0' :: '0' :: _ :: _ :: rest) = _
    rw [unescapeFrom, hexUnit?_control hcontrol]
    simp only
    rw [if_pos (by omega), Char.ofNat_toNat]
  | plain hquote hstroke hprinted =>
    show unescapeFrom done (c :: rest) = _
    rw [unescapeFrom]
    · intro _ _ _ _ _ hstroke' _
      exact absurd hstroke' hstroke
    · intro _ _ hstroke' _
      exact absurd hstroke' hstroke

/-- A text is read up to its closing quote. -/
theorem readText_escape (cs done rest : List Char) :
    readText done (escape cs ++ '"' :: rest) = some (done.reverse ++ escape cs, rest) := by
  induction cs generalizing done with
  | nil => simp [escape, readText]
  | cons c cs ih =>
    have hstep := (escaped_escapeChar c).readText done (escape cs ++ '"' :: rest)
    rw [escape, List.flatMap_cons, List.append_assoc]
    show readText done (escapeChar c ++ (escape cs ++ '"' :: rest)) = _
    rw [hstep, ih]
    simp [escape]

theorem unescapeFrom_escape (cs done : List Char) :
    unescapeFrom done (escape cs) = some (done.reverse ++ cs) := by
  induction cs generalizing done with
  | nil => simp [escape, unescapeFrom]
  | cons c cs ih =>
    have hstep := (escaped_escapeChar c).unescape done (escape cs)
    rw [escape, List.flatMap_cons]
    show unescapeFrom done (escapeChar c ++ escape cs) = _
    rw [hstep, ih]
    simp

/-- A text is what its written form stands for. -/
theorem unescape?_escape (s : String) : unescape? (escape s.toList) = some s := by
  rw [unescape?, unescapeFrom_escape]
  simp

/-! ### Numbers -/

/-- What may stand behind a value: nothing that would continue a number. -/
def Apart (rest : List Char) : Prop :=
  ∀ c ∈ rest.head?, c.isDigit = false ∧ c ≠ '.' ∧ c ≠ 'e' ∧ c ≠ 'E'

theorem apart_nil : Apart [] := by
  intro c hc
  cases hc

theorem apart_comma (rest : List Char) : Apart (',' :: rest) := by
  intro c hc
  cases hc
  decide

theorem apart_newline (rest : List Char) : Apart ('\n' :: rest) := by
  intro c hc
  cases hc
  decide

/-- Digits are read up to what is none. -/
theorem readDigits_append {digits rest : List Char} (hne : digits ≠ [])
    (hdigits : ∀ c ∈ digits, c.isDigit = true) (hrest : Apart rest) :
    readDigits (digits ++ rest) = some (digits, rest) := by
  have htake : rest.takeWhile Char.isDigit = [] := by
    cases rest with
    | nil => rfl
    | cons c rest => rw [List.takeWhile_cons_of_neg (by rw [(hrest c rfl).1]; decide)]
  have hdrop : rest.dropWhile Char.isDigit = rest := by
    cases rest with
    | nil => rfl
    | cons c rest => rw [List.dropWhile_cons_of_neg (by rw [(hrest c rfl).1]; decide)]
  unfold readDigits
  rw [List.takeWhile_append_of_pos hdigits, List.dropWhile_append_of_pos hdigits, htake, hdrop,
    List.append_nil]
  simp [hne]

/-- A digit is neither a sign nor the start of any other value. -/
theorem of_isDigit {d : Char} (h : d.isDigit = true) :
    d ≠ '-' ∧ d ≠ '"' ∧ d ≠ '[' ∧ d ≠ '\x7b' ∧ d ≠ 'n' ∧ d ≠ 't' ∧ d ≠ 'f'
      ∧ d ≠ ']' ∧ isGap d = false := by
  refine ⟨?_, ?_, ?_, ?_, ?_, ?_, ?_, ?_, ?_⟩
  case refine_9 =>
    cases hgap : isGap d with
    | false => rfl
    | true =>
      simp only [isGap, Bool.or_eq_true, decide_eq_true_eq] at hgap
      rcases hgap with ((rfl | rfl) | rfl) | rfl <;> cases h
  all_goals
    rintro rfl
    cases h

/-- The digits of a number are taken whole. -/
theorem readWhole_toDigits (n : Nat) {rest : List Char} (hrest : Apart rest) :
    readWhole (Nat.toDigits 10 n ++ rest) = some (Nat.toDigits 10 n, rest) := by
  rcases Text.toDigits_head n with h | ⟨d, more, h, hdigit, hne⟩
  · rw [h]
    show readWhole ('0' :: rest) = _
    cases rest with
    | nil => rfl
    | cons c rest =>
      unfold readWhole
      simp [(hrest c rfl).1]
  · have hdigits := readDigits_append Nat.toDigits_ne_nil (Text.isDigit_toDigits n) hrest
    rw [h] at hdigits ⊢
    unfold readWhole
    split
    · next heq =>
      injection heq with heq
      exact absurd heq hne
    · exact hdigits

/-- Neither a fraction nor an exponent stands behind. -/
theorem readFraction_apart {rest : List Char} (hrest : Apart rest) :
    readFraction rest = some ([], rest) ∧ readExponent rest = some ([], rest) := by
  constructor
  · unfold readFraction
    split
    · next r => exact absurd rfl (hrest '.' rfl).2.1
    · rfl
  · unfold readExponent
    split
    · next c r =>
      obtain ⟨-, -, he, hE⟩ := hrest c rfl
      rw [if_neg (by simp only [not_or]; exact ⟨he, hE⟩)]
    · rfl

/-- A number is read to its last digit. -/
theorem readNumber_toDigits (n : Nat) {rest : List Char} (hrest : Apart rest) :
    readNumber (Nat.toDigits 10 n ++ rest) = some (Nat.toDigits 10 n, rest) := by
  obtain ⟨hfraction, hexponent⟩ := readFraction_apart hrest
  -- no sign is taken off the front
  have hunsigned : ∀ d more, Nat.toDigits 10 n ++ rest = d :: more → d ≠ '-' := by
    intro d more h
    obtain ⟨first, others, hdigits, hdigit⟩ := Text.toDigits_cons n
    rw [hdigits] at h
    cases h
    exact (of_isDigit hdigit).1
  unfold readNumber
  split
  next sign cs heq =>
  have hsplit : sign = [] ∧ cs = Nat.toDigits 10 n ++ rest := by
    split at heq
    · next r h => exact absurd rfl (hunsigned '-' r h)
    · cases heq
      exact ⟨rfl, rfl⟩
  obtain ⟨rfl, rfl⟩ := hsplit
  simp only [readWhole_toDigits n hrest, hfraction, hexponent, bind, Option.bind]
  simp

end KeyBroker.Json
