import KeyBroker.Proofs.Json.Scalars
import KeyBroker.Proofs.Toml.Texts
import KeyBroker.Toml.Statement

/-! # Numbers and names in TOML read back

  A number is written in digits and read up to what is none. The reader looks for a date, for
  a time and for a decimal first, and finds none, since neither a dash nor a colon nor a point
  stands among the digits or right behind them. A name that needs no quotes is read up to the
  blank behind it.
-/

namespace KeyBroker.Toml

/-- What stands behind a value: a comma, a closing bracket or the end of the line. -/
def Ended (rest : List Char) : Prop := ∃ c r, rest = c :: r ∧ (c = ',' ∨ c = ']' ∨ c = '\n')

theorem Ended.unquoted {rest : List Char} (h : Ended rest) : Unquoted rest := by
  obtain ⟨c, r, rfl, rfl | rfl | rfl⟩ := h <;> exact ⟨nofun, nofun⟩

/-! ### Numbers -/

variable {digits rest : List Char}

/-- Digits with what stands behind them have a digit or its first character in front. -/
theorem head_digits (hdigits : ∀ c ∈ digits, c.isDigit = true) (hrest : Ended rest) :
    ∃ c r, digits ++ rest = c :: r ∧ (c.isDigit = true ∨ c = ',' ∨ c = ']' ∨ c = '\n') := by
  cases digits with
  | nil =>
    obtain ⟨c, r, rfl, hc⟩ := hrest
    exact ⟨c, r, rfl, Or.inr hc⟩
  | cons d ds => exact ⟨d, ds ++ rest, rfl, Or.inl (hdigits d List.mem_cons_self)⟩

/-- None of the marks within dates, times and decimals comes next. -/
theorem skipWord?_digits (hdigits : ∀ c ∈ digits, c.isDigit = true) (hrest : Ended rest)
    {mark : Char} (hmark : mark = '-' ∨ mark = ':') :
    Text.skipWord? [mark] (digits ++ rest) = none := by
  obtain ⟨c, r, heq, hc⟩ := head_digits hdigits hrest
  apply Option.eq_none_iff_forall_ne_some.mpr
  intro left hleft
  rw [Text.skipWord?_eq_some_iff, heq] at hleft
  obtain ⟨rfl, -⟩ := List.cons.inj hleft
  rcases hmark with rfl | rfl <;> revert hc <;> decide

/-- A number of so many digits is taken from more digits only, and leaves digits. -/
theorem of_readFixed {count n : Nat} {r : List Char} (hdigits : ∀ c ∈ digits, c.isDigit = true)
    (hrest : Ended rest) (h : readFixed count (digits ++ rest) = some (n, r)) :
    ∃ left, r = left ++ rest ∧ ∀ c ∈ left, c.isDigit = true := by
  unfold readFixed at h
  dsimp only at h
  split at h
  · next htaken =>
    cases h
    by_cases hcount : count ≤ digits.length
    · refine ⟨digits.drop count, List.drop_append_of_le_length hcount, fun c hc => ?_⟩
      exact hdigits c (List.mem_of_mem_drop hc)
    · -- otherwise what stands behind the digits would be taken for one
      obtain ⟨c, more, rfl, hc⟩ := hrest
      obtain ⟨extra, hextra⟩ : ∃ extra, count = digits.length + (extra + 1) :=
        ⟨count - digits.length - 1, by omega⟩
      rw [hextra, List.take_length_add_append, Bool.and_eq_true, List.all_eq_true] at htaken
      have hdigit := htaken.2 c (by simp)
      rcases hc with rfl | rfl | rfl <;> cases hdigit
  · cases h

theorem of_readBetween {low high n : Nat} {r : List Char}
    (hdigits : ∀ c ∈ digits, c.isDigit = true) (hrest : Ended rest)
    (h : readBetween low high (digits ++ rest) = some (n, r)) :
    ∃ left, r = left ++ rest ∧ ∀ c ∈ left, c.isDigit = true := by
  unfold readBetween at h
  split at h
  · next m s hfixed =>
    split at h
    · cases h
      exact of_readFixed hdigits hrest hfixed
    · cases h
  · cases h

/-- Digits are no date and no time. -/
theorem readMoment_digits (hdigits : ∀ c ∈ digits, c.isDigit = true) (hrest : Ended rest) :
    readMoment (digits ++ rest) = none := by
  have hdate : readDate (digits ++ rest) = none := by
    unfold readDate
    cases hyear : readFixed 4 (digits ++ rest) with
    | none => rfl
    | some year =>
      -- four digits may pass for a year, but no dash stands behind them
      obtain ⟨left, hleft, hall⟩ := of_readFixed hdigits hrest hyear
      simp [hleft, skipWord?_digits hall hrest]
  have htime : readTime (digits ++ rest) = none := by
    unfold readTime
    cases hhour : readBetween 0 23 (digits ++ rest) with
    | none => rfl
    | some hour =>
      -- and two of them for an hour, but no colon does
      obtain ⟨left, hleft, hall⟩ := of_readBetween hdigits hrest hhour
      simp [hleft, skipWord?_digits hall hrest]
  rw [readMoment, hdate]
  exact htime

theorem isDigitOf_of_isDigit {c : Char} (h : c.isDigit = true) : isDigitOf 10 c = true := by
  have hbounds : 48 ≤ c.toNat ∧ c.toNat ≤ 57 := Char.isDigit_iff_toNat.mp h
  rw [isDigitOf, if_pos h, decide_eq_true_eq]
  omega

theorem not_isDigitOf_of_ended {c : Char} (h : c = ',' ∨ c = ']' ∨ c = '\n') :
    isDigitOf 10 c = false ∧ c ≠ '_' := by
  rcases h with rfl | rfl | rfl <;> decide

/-- Digits are taken up to what is none. -/
theorem readRun_append (hdigits : ∀ c ∈ digits, c.isDigit = true) (hrest : Ended rest) :
    readRun 10 (digits ++ rest) = (digits, rest) := by
  induction digits with
  | nil =>
    obtain ⟨c, r, rfl, hc⟩ := hrest
    obtain ⟨hnone, hscore⟩ := not_isDigitOf_of_ended hc
    show readRun 10 (c :: r) = _
    rw [readRun]
    · rw [if_neg (by rw [hnone]; decide)]
    · rintro _ _ hc _
      exact hscore hc
  | cons d ds ih =>
    have hd := hdigits d List.mem_cons_self
    rw [List.cons_append, readRun]
    · rw [if_pos (isDigitOf_of_isDigit hd), ih fun c hc => hdigits c (List.mem_cons_of_mem d hc)]
    · rintro _ _ rfl _
      cases hd

/-- The digits of a number are those of a decimal integer. -/
theorem readWhole_toDigits (n : Nat) (hrest : Ended rest) :
    readWhole (Nat.toDigits 10 n ++ rest) = some (Nat.toDigits 10 n, rest) := by
  have hall := Text.isDigit_toDigits n
  obtain h | ⟨d, more, h, hdigit, hne⟩ := Text.toDigits_head n
  · rw [h]
    rfl
  · rw [h] at hall ⊢
    rw [List.cons_append, readWhole, readDigits, if_pos (isDigitOf_of_isDigit hdigit),
      readRun_append (fun c hc => hall c (List.mem_cons_of_mem d hc)) hrest]
    rintro _ ⟨⟩
    exact hne rfl

/-- Neither a fraction nor an exponent stands behind. -/
theorem readFraction_ended (hrest : Ended rest) :
    readFraction rest = none ∧ readExponent rest = none := by
  obtain ⟨c, r, rfl, rfl | rfl | rfl⟩ := hrest <;> exact ⟨rfl, rfl⟩

/-- No sign is taken off the front of a number. -/
theorem readSign_toDigits (n : Nat) (rest : List Char) :
    readSign (Nat.toDigits 10 n ++ rest) = (false, Nat.toDigits 10 n ++ rest) := by
  obtain ⟨d, more, h, hdigit⟩ := Text.toDigits_cons n
  rw [h, List.cons_append, readSign]
  all_goals
    rintro _ ⟨⟩
    cases hdigit

theorem readDecimal_toDigits (n : Nat) (hrest : Ended rest) :
    readDecimal (Nat.toDigits 10 n ++ rest) = none := by
  obtain ⟨hfraction, hexponent⟩ := readFraction_ended hrest
  simp only [readDecimal, readSign_toDigits, readWhole_toDigits n hrest, hfraction, hexponent]

/-- The number that the digits of a number stand for. -/
theorem numberOf_toDigits (n : Nat) : numberOf 10 (Nat.toDigits 10 n) = n := by
  have hvalue : numberOf 10 (Nat.toDigits 10 n) = Nat.ofDigitChars 10 (Nat.toDigits 10 n) 0 := by
    refine List.foldl_ext _ _ 0 fun m c hc => ?_
    rw [digitOf, if_pos (Text.isDigit_toDigits n c hc)]
    rfl
  rw [hvalue, Nat.ofDigitChars_toDigits (by decide) (by decide)]

theorem readInteger_toDigits {n : Nat} (hsmall : n < 0x8000000000000000) (hrest : Ended rest) :
    readInteger (Nat.toDigits 10 n ++ rest) = some ((n : Int), rest) := by
  have hfits : fits n = true := by
    simp only [fits, Bool.and_eq_true, decide_eq_true_eq]
    omega
  -- a zero in front is the whole number, and what stands behind it marks no other base
  have hbase : ∀ mark r, Nat.toDigits 10 n ++ rest = '0' :: mark :: r →
      mark = ',' ∨ mark = ']' ∨ mark = '\n' := by
    intro mark r heq
    obtain h | ⟨d, more, h, -, hne⟩ := Text.toDigits_head n
    · obtain ⟨c, r', rfl, hc⟩ := hrest
      rw [h] at heq
      cases heq
      exact hc
    · rw [h] at heq
      exact absurd (List.cons.inj heq).1 hne
  unfold readInteger
  split
  · next r heq => exact absurd (hbase 'x' r heq) (by decide)
  · next r heq => exact absurd (hbase 'o' r heq) (by decide)
  · next r heq => exact absurd (hbase 'b' r heq) (by decide)
  · simp only [readSign_toDigits, readWhole_toDigits n hrest, numberOf_toDigits]
    exact if_pos hfits

/-- A number is read to its last digit. -/
theorem readNumeric_toDigits {n : Nat} (hsmall : n < 0x8000000000000000) (hrest : Ended rest) :
    readNumeric (Nat.toDigits 10 n ++ rest) = some (.integer n, rest) := by
  rw [readNumeric, readMoment_digits (Text.isDigit_toDigits n) hrest]
  simp only [readDecimal_toDigits n hrest, readInteger_toDigits hsmall hrest, Option.map_some]

/-! ### Names -/

/-- A name that needs no quotes. -/
structure Bare (name : String) : Prop where
  ne_nil : name.toList ≠ []
  bare : ∀ c ∈ name.toList, isBare c = true

instance (name : String) : Decidable (Bare name) :=
  decidable_of_iff (name.toList ≠ [] ∧ name.toList.all isBare = true)
    ⟨fun h => ⟨h.1, List.all_eq_true.mp h.2⟩, fun h => ⟨h.1, List.all_eq_true.mpr h.2⟩⟩

/-- A character of such a name is no blank, no quote, no bracket, and starts no comment and no
    line. -/
theorem of_isBare {c : Char} (h : isBare c = true) :
    isGap c = false ∧ c ≠ '"' ∧ c ≠ '\x27' ∧ c ≠ '[' ∧ c ≠ '#' ∧ c ≠ '\n' ∧ c ≠ '\r' := by
  refine ⟨?_, ?_, ?_, ?_, ?_, ?_, ?_⟩
  case refine_1 =>
    cases hgap : isGap c with
    | false => rfl
    | true =>
      simp only [isGap, Bool.or_eq_true, decide_eq_true_eq] at hgap
      rcases hgap with rfl | rfl <;> cases h
  all_goals
    rintro rfl
    cases h

theorem isBare_of_isDigit {c : Char} (h : c.isDigit = true) : isBare c = true := by
  simp [isBare, Char.isAlphanum, h]

theorem Bare.head {name : String} (h : Bare name) (rest : List Char) :
    ∃ c r, name.toList ++ rest = c :: r ∧ isBare c = true := by
  cases hname : name.toList with
  | nil => exact absurd hname h.ne_nil
  | cons c r => exact ⟨c, r ++ rest, rfl, h.bare c (by rw [hname]; exact List.mem_cons_self)⟩

theorem skipGap_of_not {c : Char} (h : isGap c = false) (rest : List Char) :
    skipGap (c :: rest) = c :: rest := by
  rw [skipGap, List.dropWhile_cons_of_neg (by rw [h]; decide)]

/-- A name is taken up to what belongs to none, with the blanks behind it. -/
theorem readName_bare {name : String} (h : Bare name) {rest : List Char}
    (hrest : ∀ c ∈ rest.head?, isBare c = false) :
    readName (name.toList ++ rest) = some (name, skipGap rest) := by
  obtain ⟨c, r, heq, hc⟩ := h.head rest
  obtain ⟨hgap, hquote, hapostrophe, -⟩ := of_isBare hc
  have hshort : readShortText (name.toList ++ rest) = none := by
    rw [heq, readShortText]
    · rintro _ ⟨⟩
      exact hquote rfl
    · rintro _ ⟨⟩
      exact hapostrophe rfl
  have hskip : skipGap (name.toList ++ rest) = name.toList ++ rest := by
    rw [heq, skipGap_of_not hgap]
  have htake : rest.takeWhile isBare = [] := by
    cases rest with
    | nil => rfl
    | cons c rest => rw [List.takeWhile_cons_of_neg (by rw [hrest c rfl]; decide)]
  have hdrop : rest.dropWhile isBare = rest := by
    cases rest with
    | nil => rfl
    | cons c rest => rw [List.dropWhile_cons_of_neg (by rw [hrest c rfl]; decide)]
  simp only [readName, hskip, hshort, List.takeWhile_append_of_pos h.bare,
    List.dropWhile_append_of_pos h.bare, htake, hdrop, List.append_nil]
  rw [if_neg (by simpa using h.ne_nil), String.ofList_toList]

/-- And it is the whole key if no point stands behind it. -/
theorem readKey_bare {name : String} (h : Bare name) (rest : List Char)
    (hrest : ∀ c ∈ rest.head?, isBare c = false) (hpoint : (skipGap rest).head? ≠ some '.') :
    readKey (name.toList ++ rest) = some (⟨name, []⟩, skipGap rest) := by
  have hnames : readNames (depthLimit - 1) (skipGap rest) = some ([], skipGap rest) := by
    show readNames (78 + 1) _ = _
    rw [readNames]
    rintro _ heq
    exact hpoint (by rw [heq]; rfl)
  simp only [readKey, readName_bare h hrest, hnames, Option.map_some]

end KeyBroker.Toml
