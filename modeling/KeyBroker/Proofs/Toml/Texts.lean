import KeyBroker.Toml.Text
import Mathlib.Data.List.Basic

/-! # Texts in TOML read back

  A text is written in one of four forms, and each is read back as the text, up to the quotes
  that close it, if no other quote stands behind them. In double quotes a character is
  written as it is or as an escape, and read as it is written. Between triple quotes up to
  two quotes in a row are written as they are, also before those that close, and there the
  reader must tell the ones from the others.
-/

namespace KeyBroker.Toml

/-- A character that is plain breaks no line. -/
theorem of_isPlain {c : Char} (h : isPlain c = true) : c ≠ '\n' ∧ c ≠ '\r' := by
  constructor <;> rintro rfl <;> cases h

/-! ### Escapes -/

/-- The ways to escape a character: behind a stroke and in short, or by its number. -/
inductive Escape (c : Char) : List Char → Prop where
  | short (letter : Char) (hletter : shortEscape? letter = some c) : Escape c ['\\', letter]
  | numbered (high low : Char) (hvalue : hexChar? ['0', '0', high, low] = some c) :
    Escape c ['\\', 'u', '0', '0', high, low]

/-- A digit keeps its value as a capital. -/
theorem hexValue?_toUpper : ∀ d < 16, Text.hexValue? d.digitChar.toUpper = some d := by decide

/-- A byte in hexadecimal, two digits wide behind a leading one. -/
theorem toDigits_byte {n : Nat} (h : n < 0x100) :
    Nat.toDigits 16 (0x100 + n) = ['1', (n / 16).digitChar, (n % 16).digitChar] := by
  have hlow : (0x100 + n) % 16 = n % 16 := by omega
  have hhigh : (0x100 + n) / 16 % 16 = n / 16 := by omega
  have hlead : (0x100 + n) / 16 / 16 = 1 := by omega
  rw [Nat.toDigits_of_base_le (by decide) (by omega), Nat.toDigits_of_base_le (by decide) (by omega),
    Nat.toDigits_of_lt_base (by omega), hlow, hhigh, hlead]
  rfl

/-- The escape of a control gives its number. -/
theorem escape_control {n : Nat} (h : n < 0x80) :
    Escape (Char.ofNat n)
      (['\\', 'u', '0', '0'] ++ (Nat.toDigits 16 (0x100 + n)).tail.map Char.toUpper) := by
  have hhigh := hexValue?_toUpper (n / 16) (by omega)
  have hlow := hexValue?_toUpper (n % 16) (by omega)
  have hzero : Text.hexValue? '0' = some 0 := rfl
  have hvalue : hexChar? ['0', '0', (n / 16).digitChar.toUpper, (n % 16).digitChar.toUpper]
      = some (Char.ofNat n) := by
    have hvalid : n.isValidChar := Or.inl (by omega)
    simp [hexChar?, hzero, hhigh, hlow, Nat.div_add_mod, hvalid]
  rw [toDigits_byte (by omega)]
  exact .numbered _ _ hvalue

theorem escape_of_escape? {long : Bool} {c : Char} {written : List Char}
    (h : escape? long c = some written) : Escape c written := by
  -- the short escapes in the order in which they are tried; what is left is a control
  unfold escape? at h
  split at h
  · next hc => subst hc; cases h; exact .short 'b' rfl
  split at h
  · next hc => subst hc; cases h; exact .short 't' rfl
  split at h
  · next hc =>
    subst hc
    cases long with
    | true => cases h
    | false => cases h; exact .short 'n' rfl
  split at h
  · next hc => subst hc; cases h; exact .short 'f' rfl
  split at h
  · next hc => subst hc; cases h; exact .short 'r' rfl
  split at h
  · next hc => subst hc; cases h; exact .short '\\' rfl
  split at h
  · cases h
  · next hcontrol =>
    have hlow : c.toNat < 0x80 := by
      simp only [isPlain, Bool.or_eq_true, Bool.and_eq_true, decide_eq_true_eq] at hcontrol
      omega
    cases h
    have hescape := escape_control hlow
    rwa [Char.ofNat_toNat] at hescape

/-- A character without an escape is a line feed in a text of many lines, or is plain and no
    stroke. -/
theorem of_escape?_eq_none {long : Bool} {c : Char} (h : escape? long c = none) :
    long = true ∧ c = '\n' ∨ isPlain c = true ∧ c ≠ '\\' := by
  unfold escape? at h
  split at h
  · cases h
  split at h
  · cases h
  split at h
  · next hc =>
    subst hc
    cases long with
    | true => exact Or.inl ⟨rfl, rfl⟩
    | false => cases h
  split at h
  · cases h
  split at h
  · cases h
  split at h
  · cases h
  split at h
  · next hstroke hplain => exact Or.inr ⟨hplain, hstroke⟩
  · cases h

/-- An escape is read as its character, -/
theorem Escape.readBasic {c : Char} {written : List Char} (h : Escape c written)
    (done rest : List Char) :
    readBasic done (written ++ rest) = Toml.readBasic (c :: done) rest := by
  cases h with
  | short letter hletter =>
    show Toml.readBasic done ('\\' :: letter :: rest) = _
    rw [Toml.readBasic]
    · rw [hletter]
    · rintro _ _ _ _ _ rfl
      cases hletter
    · rintro _ _ _ _ _ _ _ _ _ rfl
      cases hletter
  | numbered high low hvalue =>
    show Toml.readBasic done ('\\' :: 'u' :: '0' :: '0' :: high :: low :: rest) = _
    rw [Toml.readBasic, hvalue]

/-- also between triple quotes. -/
theorem Escape.readLongBasic {c : Char} {written : List Char} (h : Escape c written)
    (done rest : List Char) :
    readLongBasic false done (written ++ rest) = Toml.readLongBasic false (c :: done) rest := by
  cases h with
  | short letter hletter =>
    show Toml.readLongBasic false done ('\\' :: letter :: rest) = _
    rw [Toml.readLongBasic]
    · rw [hletter]
    · rintro _ _ _ _ _ rfl
      cases hletter
    · rintro _ _ _ _ _ _ _ _ _ rfl
      cases hletter
  | numbered high low hvalue =>
    show Toml.readLongBasic false done ('\\' :: 'u' :: '0' :: '0' :: high :: low :: rest) = _
    rw [Toml.readLongBasic, hvalue]

theorem Escape.head {c : Char} {written : List Char} (h : Escape c written) :
    ∃ more, written = '\\' :: more := by
  cases h with
  | short letter hletter => exact ⟨_, rfl⟩
  | numbered high low hvalue => exact ⟨_, rfl⟩

/-! ### On one line -/

/-- A plain character is read as it is. -/
theorem readBasic_plain {c : Char} (hplain : isPlain c = true) (hstroke : c ≠ '\\')
    (hquote : c ≠ '"') (done rest : List Char) :
    readBasic done (c :: rest) = readBasic (c :: done) rest := by
  rw [readBasic]
  · simp [hplain, hstroke]
  all_goals simp [hquote, hstroke]

/-- A text with its escapes is read up to its closing quote. -/
theorem readBasic_escaped (cs done rest : List Char) :
    readBasic done (escaped false 0 0 cs ++ '"' :: rest) = some (done.reverse ++ cs, rest) := by
  induction cs generalizing done with
  | nil => simp [escaped, readBasic]
  | cons c cs ih =>
    unfold escaped
    split
    · next hquote =>
      subst hquote
      have hstep := (Escape.short '"' rfl : Escape '"' ['\\', '"']).readBasic done
        (escaped false 0 0 cs ++ '"' :: rest)
      refine Eq.trans hstep ?_
      rw [ih]
      simp
    · next hquote =>
      split
      · next e he =>
        rw [List.append_assoc, (escape_of_escape? he).readBasic, ih]
        simp
      · next he =>
        obtain ⟨hlong, -⟩ | ⟨hplain, hstroke⟩ := of_escape?_eq_none he
        · cases hlong
        · rw [List.cons_append, readBasic_plain hplain hstroke hquote, ih]
          simp

/-- A text without apostrophes is read up to its closing one. -/
theorem readLiteral_append {cs : List Char} (hplain : ∀ c ∈ cs, isPlain c = true)
    (hquote : ∀ c ∈ cs, c ≠ '\x27') (done rest : List Char) :
    readLiteral done (cs ++ '\x27' :: rest) = some (done.reverse ++ cs, rest) := by
  induction cs generalizing done with
  | nil => simp [readLiteral]
  | cons c cs ih =>
    rw [List.cons_append, readLiteral]
    · rw [if_pos (hplain c List.mem_cons_self),
        ih (fun d hd => hplain d (List.mem_cons_of_mem c hd))
          (fun d hd => hquote d (List.mem_cons_of_mem c hd))]
      simp
    · exact hquote c List.mem_cons_self

/-! ### Between triple quotes -/

/-- A reader of texts between three of the character `q`: it stops at the first three in a row
    that have no other behind them, and of up to five in a row the first ones belong to the
    text. -/
structure Closing (q : Char) (read : List Char → List Char → Option (List Char × List Char)) :
    Prop where
  three : ∀ done rest, rest.head? ≠ some q →
    read done (q :: q :: q :: rest) = some (done.reverse, rest)
  four : ∀ done rest, rest.head? ≠ some q →
    read done (q :: q :: q :: q :: rest) = some ((q :: done).reverse, rest)
  five : ∀ done rest,
    read done (q :: q :: q :: q :: q :: rest) = some ((q :: q :: done).reverse, rest)
  fewer : ∀ done rest, (∀ more, rest ≠ q :: q :: more) →
    read done (q :: rest) = read (q :: done) rest

/-- A text `cs` and the form in which it is written for a reader, piece by piece: the character
    `q` by itself, of which at most two stand in a row and `run` came before, and any other
    character as a piece that does not start with `q`. -/
inductive Pieces (q : Char) (read : List Char → List Char → Option (List Char × List Char)) :
    (run : Nat) → (cs written : List Char) → Prop where
  | nil (run : Nat) : Pieces q read run [] []
  | quote (run : Nat) (cs written : List Char) (hrun : run < 2)
      (hrest : Pieces q read (run + 1) cs written) : Pieces q read run (q :: cs) (q :: written)
  | other (run : Nat) (c d : Char) (piece cs written : List Char) (hhead : d ≠ q)
      (hread : ∀ done rest, read done (d :: piece ++ rest) = read (c :: done) rest)
      (hrest : Pieces q read 0 cs written) :
    Pieces q read run (c :: cs) (d :: piece ++ written)

variable {q : Char} {read : List Char → List Char → Option (List Char × List Char)}

/-- What is written in pieces is read up to the three that close it. -/
theorem Pieces.reads (hclosing : Closing q read) {run : Nat} {cs written : List Char}
    (h : Pieces q read run cs written) {rest : List Char} (hrest : rest.head? ≠ some q)
    (done : List Char) :
    read done (written ++ q :: q :: q :: rest) = some (done.reverse ++ cs, rest) := by
  induction h generalizing done with
  | nil run => simpa using hclosing.three done rest hrest
  | other run c d piece cs written hhead hread hwritten ih =>
    rw [List.append_assoc, hread, ih]
    simp
  | quote run cs written hrun hwritten ih =>
    -- as many as stand before the three that close it belong to the text
    cases hwritten with
    | nil => simpa using hclosing.four done rest hrest
    | other _ c d piece cs written hhead hread hwritten =>
      rw [List.cons_append, hclosing.fewer, ih]
      · simp
      · intro more hmore
        exact hhead (List.cons.inj hmore).1
    | quote _ cs written hrun hwritten =>
      cases hwritten with
      | nil => simpa using hclosing.five done rest
      | quote _ _ _ hrun' _ => omega
      | other _ c d piece cs written hhead hread hwritten =>
        rw [List.cons_append, hclosing.fewer, ih]
        · simp
        · intro more hmore
          exact hhead (List.cons.inj (List.cons.inj hmore).2).1

theorem closing_readLongBasic : Closing '"' (readLongBasic false) where
  three := by
    intro done rest hrest
    rw [readLongBasic]
    all_goals
      rintro _ rfl
      exact hrest rfl
  four := by
    intro done rest hrest
    rw [readLongBasic]
    rintro _ rfl
    exact hrest rfl
  five := by
    intro done rest
    rw [readLongBasic]
  fewer := by
    intro done rest hrest
    rw [readLongBasic]
    · rintro _ rfl
      exact hrest _ rfl
    · rintro _ rfl
      exact hrest _ rfl
    · rintro _ rfl
      exact hrest _ rfl

theorem closing_readLongLiteral : Closing '\x27' readLongLiteral where
  three := by
    intro done rest hrest
    rw [readLongLiteral]
    all_goals
      rintro _ rfl
      exact hrest rfl
  four := by
    intro done rest hrest
    rw [readLongLiteral]
    rintro _ rfl
    exact hrest rfl
  five := by
    intro done rest
    rw [readLongLiteral]
  fewer := by
    intro done rest hrest
    rw [readLongLiteral]
    · rintro _ rfl
      exact hrest _ rfl
    · rintro _ rfl
      exact hrest _ rfl
    · rintro _ rfl
      exact hrest _ rfl

/-- A plain character is read as it is between triple quotes too, -/
theorem readLongBasic_plain {c : Char} (hplain : isPlain c = true) (hstroke : c ≠ '\\')
    (hquote : c ≠ '"') (done rest : List Char) :
    readLongBasic false done (c :: rest) = readLongBasic false (c :: done) rest := by
  obtain ⟨hfeed, hreturn⟩ := of_isPlain hplain
  rw [readLongBasic]
  · simp [hplain, hstroke]
  all_goals simp [hquote, hstroke, hfeed, hreturn]

/-- and so it is between triple apostrophes. -/
theorem readLongLiteral_plain {c : Char} (hplain : isPlain c = true) (hquote : c ≠ '\x27')
    (done rest : List Char) :
    readLongLiteral done (c :: rest) = readLongLiteral (c :: done) rest := by
  obtain ⟨hfeed, hreturn⟩ := of_isPlain hplain
  rw [readLongLiteral]
  · rw [if_pos hplain]
  all_goals simp [hquote, hfeed, hreturn]

/-- What is escaped for many lines is written in pieces. -/
theorem pieces_escaped {run : Nat} (hrun : run ≤ 2) (cs : List Char) :
    Pieces '"' (readLongBasic false) run cs (escaped true 2 run cs) := by
  -- a quote is a piece by itself while fewer than two stand before it, and an escape otherwise
  induction cs generalizing run with
  | nil => exact .nil run
  | cons c cs ih =>
    unfold escaped
    split
    · next hquote =>
      subst hquote
      split
      · next hfew => exact .quote run cs _ hfew (ih hfew)
      · exact .other run '"' '\\' ['"'] cs _ (by decide)
          (Escape.short '"' rfl : Escape '"' ['\\', '"']).readLongBasic (ih (by decide))
    · next hquote =>
      split
      · next e he =>
        have hescape := escape_of_escape? he
        obtain ⟨piece, rfl⟩ := hescape.head
        exact .other run c '\\' piece cs _ (by decide) hescape.readLongBasic (ih (by decide))
      · next he =>
        refine .other run c c [] cs _ hquote (fun done rest => ?_) (ih (by decide))
        obtain ⟨-, rfl⟩ | ⟨hplain, hstroke⟩ := of_escape?_eq_none he
        · show readLongBasic false done ('\n' :: rest) = _
          rw [readLongBasic]
          rfl
        · exact readLongBasic_plain hplain hstroke hquote done rest

/-- A text without three apostrophes in a row is written in pieces as it is. -/
theorem pieces_of_not_crowded {run : Nat} {cs : List Char} (hrun : run ≤ 2)
    (hplain : ∀ c ∈ cs, isPlain c = true ∨ c = '\n') (hfew : crowded '\x27' 2 run cs = false) :
    Pieces '\x27' readLongLiteral run cs cs := by
  induction cs generalizing run with
  | nil => exact .nil run
  | cons c cs ih =>
    have hrest : ∀ d ∈ cs, isPlain d = true ∨ d = '\n' :=
      fun d hd => hplain d (List.mem_cons_of_mem c hd)
    unfold crowded at hfew
    split at hfew
    · next hquote =>
      subst hquote
      rw [Bool.or_eq_false_iff, decide_eq_false_iff_not] at hfew
      exact .quote run cs cs (by omega) (ih (by omega) hrest hfew.2)
    · next hquote =>
      refine .other run c c [] cs _ hquote (fun done rest => ?_) (ih (by decide) hrest hfew)
      obtain hc | rfl := hplain c List.mem_cons_self
      · exact readLongLiteral_plain hc hquote done rest
      · show readLongLiteral done ('\n' :: rest) = _
        rw [readLongLiteral]

/-! ### Every form -/

/-- What may stand behind a text: no quote of either kind. -/
def Unquoted (rest : List Char) : Prop := rest.head? ≠ some '"' ∧ rest.head? ≠ some '\x27'

/-- A line break is dropped only where there is one. -/
theorem dropBreak_eq_self {cs : List Char} (h : ∀ c ∈ cs.head?, c ≠ '\n' ∧ c ≠ '\r') :
    dropBreak cs = cs := by
  have hnone : skipBreak? cs = none := by
    unfold skipBreak?
    split
    · exact absurd rfl (h '\n' rfl).1
    · exact absurd rfl (h '\r' rfl).2
    · rfl
  rw [dropBreak, hnone, Option.getD_none]

/-- The line break that is put before a text of many lines is dropped again. -/
theorem dropBreak_leadingBreak {cs tail : List Char}
    (h : '\n' ∉ cs → ∀ c ∈ tail.head?, c ≠ '\n' ∧ c ≠ '\r') :
    dropBreak (leadingBreak cs ++ tail) = tail := by
  unfold leadingBreak
  split
  · rfl
  · next hnone => exact dropBreak_eq_self (h (by simpa using hnone))

/-- What is escaped starts with a quote only if the text starts with one that needs no stroke,
    and with a line break only if the text does. -/
theorem escaped_head (long : Bool) (limit run : Nat) (c : Char) (cs : List Char) :
    ∃ d more, escaped long limit run (c :: cs) = d :: more
      ∧ (d = '"' → run < limit) ∧ (c ≠ '\n' → d ≠ '\n' ∧ d ≠ '\r') := by
  unfold escaped
  split
  · split
    · next hfew => exact ⟨_, _, rfl, fun _ => hfew, fun _ => by decide⟩
    · exact ⟨_, _, rfl, nofun, fun _ => by decide⟩
  next hquote =>
  split
  · next e he =>
    obtain ⟨more, rfl⟩ := (escape_of_escape? he).head
    exact ⟨_, _, rfl, nofun, fun _ => by decide⟩
  · next he =>
    refine ⟨_, _, rfl, fun hc => absurd hc hquote, fun hfeed => ?_⟩
    obtain ⟨-, hc⟩ | ⟨hplain, -⟩ := of_escape?_eq_none he
    · exact absurd hc hfeed
    · exact of_isPlain hplain

theorem readText_writeBasic (cs : List Char) {rest : List Char} (hrest : Unquoted rest) :
    readText (writeBasic cs ++ rest) = some (cs, rest) := by
  have hsingle : readText (writeBasic cs ++ rest)
      = readShortText ('"' :: (escaped false 0 0 cs ++ '"' :: rest)) := by
    have hwritten : writeBasic cs ++ rest = '"' :: (escaped false 0 0 cs ++ '"' :: rest) := by
      simp [writeBasic]
    rw [hwritten, readText]
    · -- no three quotes stand in front: the second closes an empty text, or is none
      intro r hr
      have hr := (List.cons.inj hr).2
      cases cs with
      | nil =>
        cases hr
        exact hrest.1 rfl
      | cons c cs =>
        obtain ⟨d, more, hescaped, hquote, -⟩ := escaped_head false 0 0 c cs
        rw [hescaped] at hr
        exact absurd (hquote (List.cons.inj hr).1) (Nat.lt_irrefl 0)
    · rintro r ⟨⟩
  rw [hsingle, readShortText, readBasic_escaped]
  rfl

theorem readText_writeLiteral {cs : List Char} (hne : cs ≠ [])
    (hplain : ∀ c ∈ cs, isPlain c = true) (hquote : ∀ c ∈ cs, c ≠ '\x27') (rest : List Char) :
    readText (writeLiteral cs ++ rest) = some (cs, rest) := by
  cases cs with
  | nil => exact absurd rfl hne
  | cons c cs =>
    have hread := readLiteral_append hplain hquote [] rest
    have hwritten : writeLiteral (c :: cs) ++ rest = '\x27' :: (c :: cs ++ '\x27' :: rest) := by
      simp [writeLiteral]
    rw [hwritten, readText, readShortText, hread]
    · rfl
    · rintro r ⟨⟩
    · intro r hr
      exact hquote c List.mem_cons_self (List.cons.inj (List.cons.inj hr).2).1

theorem readText_writeLongBasic (cs : List Char) {rest : List Char} (hrest : Unquoted rest) :
    readText (writeLongBasic cs ++ rest) = some (cs, rest) := by
  have hdrop : dropBreak (leadingBreak cs ++ (escaped true 2 0 cs ++ '"' :: '"' :: '"' :: rest))
      = escaped true 2 0 cs ++ '"' :: '"' :: '"' :: rest := by
    refine dropBreak_leadingBreak fun hnone => ?_
    cases cs with
    | nil =>
      rintro c ⟨⟩
      decide
    | cons c cs =>
      obtain ⟨d, more, hescaped, -, hbreak⟩ := escaped_head true 2 0 c cs
      rw [hescaped]
      rintro e ⟨⟩
      exact hbreak fun hc => hnone (hc ▸ List.mem_cons_self)
  have hread := (pieces_escaped (Nat.zero_le 2) cs).reads closing_readLongBasic hrest.1 []
  have hwritten : writeLongBasic cs ++ rest = '"' :: '"' :: '"' ::
      (leadingBreak cs ++ (escaped true 2 0 cs ++ '"' :: '"' :: '"' :: rest)) := by
    simp [writeLongBasic]
  rw [hwritten, readText, hdrop, hread]
  rfl

theorem readText_writeLongLiteral {cs : List Char}
    (hplain : ∀ c ∈ cs, isPlain c = true ∨ c = '\n') (hfew : crowded '\x27' 2 0 cs = false)
    {rest : List Char} (hrest : Unquoted rest) :
    readText (writeLongLiteral cs ++ rest) = some (cs, rest) := by
  have hdrop : dropBreak (leadingBreak cs ++ (cs ++ '\x27' :: '\x27' :: '\x27' :: rest))
      = cs ++ '\x27' :: '\x27' :: '\x27' :: rest := by
    refine dropBreak_leadingBreak fun hnone => ?_
    cases cs with
    | nil =>
      rintro c ⟨⟩
      decide
    | cons c cs =>
      rintro d ⟨⟩
      refine (hplain c List.mem_cons_self).elim of_isPlain fun hfeed => ?_
      exact absurd (hfeed ▸ List.mem_cons_self) hnone
  have hread := (pieces_of_not_crowded (Nat.zero_le 2) hplain hfew).reads closing_readLongLiteral
    hrest.2 []
  have hwritten : writeLongLiteral cs ++ rest = '\x27' :: '\x27' :: '\x27' ::
      (leadingBreak cs ++ (cs ++ '\x27' :: '\x27' :: '\x27' :: rest)) := by
    simp [writeLongLiteral]
  rw [hwritten, readText, hdrop, hread]
  rfl

/-- A text without a control has only plain characters and line feeds. -/
theorem of_hasControl {cs : List Char} (h : hasControl cs = false) :
    ∀ c ∈ cs, isPlain c = true ∨ c = '\n' := by
  intro c hc
  have hnone := List.any_eq_false.mp h c hc
  simpa [or_iff_not_imp_left] using hnone

/-- A text is read back from the form in which it is written. -/
theorem readText_writeText (cs : List Char) {rest : List Char} (hrest : Unquoted rest) :
    readText (writeText cs ++ rest) = some (cs, rest) := by
  -- the forms in the order in which the writer tries them
  unfold writeText
  dsimp only
  split
  · exact readText_writeBasic cs hrest
  next hfirst =>
  split
  · next h =>
    simp only [Bool.and_eq_true, Bool.not_eq_true', List.contains_eq_mem,
      decide_eq_false_iff_not] at h
    obtain ⟨⟨hcontrol, hquote⟩, hshort⟩ := h
    refine readText_writeLiteral ?_ ?_ ?_ rest
    · rintro rfl
      exact hfirst rfl
    · intro c hc
      refine (of_hasControl hcontrol c hc).resolve_right ?_
      rintro rfl
      exact hshort hc
    · rintro c hc rfl
      exact hquote hc
  split
  · exact readText_writeLongBasic cs hrest
  split
  · next h =>
    simp only [Bool.and_eq_true, Bool.not_eq_true'] at h
    exact readText_writeLongLiteral (of_hasControl h.1) h.2 hrest
  split
  · exact readText_writeLongBasic cs hrest
  · exact readText_writeBasic cs hrest

end KeyBroker.Toml
