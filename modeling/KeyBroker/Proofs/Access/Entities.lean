import KeyBroker.Access.Caller
import KeyBroker.Proofs.Text.Numerals

/-! # Entities in text

  An entity is written as a star, or as a word, a colon and the digits of a number. Reading
  accepts this with white space around it and in front of the number, with a plus sign, and
  with zeros in front of the digits, and it accepts nothing else. The number that is read is
  the value of the digits and fits 32 bits; a larger one is refused and never cut down. What
  is written for an entity is read back as that entity.
-/

namespace KeyBroker.Entity

open Text

/-! ### Forms -/

/-- The text of a number: white space, a plus sign or none, and digits whose value fits 32
    bits. -/
inductive Number : List Char → UInt32 → Prop where
  | of {gap sign digits : List Char} {n : Nat} (hgap : Blank gap) (hsign : Sign sign)
      (hdigits : Numeral digits n) (hfits : n ≤ 2 ^ 32 - 1) :
      Number (gap ++ (sign ++ digits)) (UInt32.ofNat n)

/-- What the word in front of a colon makes of the number behind it. -/
inductive Kind : List Char → (UInt32 → Entity) → Prop where
  | user : Kind "user".toList user
  | group : Kind "group".toList group

/-- The texts that name an entity, without the white space around them. -/
inductive Names : List Char → Entity → Prop where
  | anyone : Names ['*'] anyone
  | numbered {word number : List Char} {make : UInt32 → Entity} {id : UInt32}
      (hkind : Kind word make) (hnumber : Number number id) :
      Names (word ++ ':' :: number) (make id)

theorem Kind.trimmed {word : List Char} {make : UInt32 → Entity} (h : Kind word make) :
    Trimmed word := by
  cases h with
  | user => exact ⟨⟨'u', "ser".toList, rfl, rfl⟩, ⟨"use".toList, 'r', rfl, rfl⟩⟩
  | group => exact ⟨⟨'g', "roup".toList, rfl, rfl⟩, ⟨"grou".toList, 'p', rfl, rfl⟩⟩

/-- So trimming takes away what stands around a name, and nothing of the name. -/
theorem Names.trimmed {core : List Char} {e : Entity} (h : Names core e) : Trimmed core := by
  cases h with
  | anyone => exact ⟨⟨'*', [], rfl, rfl⟩, ⟨[], '*', rfl, rfl⟩⟩
  | numbered hkind hnumber =>
    obtain ⟨-, hsign, hdigits, -⟩ := hnumber
    exact hkind.trimmed.around (trimmed_signed hsign hdigits) (':' :: _)

/-- A number is read just when it is one, apart from white space behind it. -/
theorem word32?_trim_iff {cs : List Char} {id : UInt32} :
    word32? (trim cs) = some id
      ↔ ∃ number after, Number number id ∧ Blank after ∧ cs = number ++ after := by
  rw [word32?_eq_some_iff]
  constructor
  · rintro ⟨sign, digits, n, hsign, hdigits, hfits, htrim, rfl⟩
    obtain ⟨gap, after, hgap, hafter, hcs⟩ := exists_eq_trim cs
    rw [htrim] at hcs
    exact ⟨_, after, .of hgap hsign hdigits (by omega), hafter, hcs⟩
  · rintro ⟨_, after, ⟨hgap, hsign, hdigits, hfits⟩, hafter, rfl⟩
    exact ⟨_, _, _, hsign, hdigits, by omega,
      trim_append hgap hafter (trimmed_signed hsign hdigits), rfl⟩

/-! ### Characters -/

/-- A character that may stand in front of the colon: no digit, no minus sign and no colon. -/
def Inert (c : Char) : Prop := c ≠ '-' ∧ c ≠ ':' ∧ c.isDigit = false

instance : DecidablePred Inert := fun _ => inferInstanceAs (Decidable (_ ∧ _ ∧ _))

/-- A character that may stand behind the colon. -/
def Numeric (c : Char) : Prop := c.isDigit = true ∨ c = '+' ∨ isBlank c = true

instance : DecidablePred Numeric := fun _ => inferInstanceAs (Decidable (_ ∨ _ ∨ _))

theorem inert_of_blank {cs : List Char} (h : Blank cs) : ∀ c ∈ cs, Inert c := by
  intro c hc
  have hblank := h c hc
  refine ⟨?_, ?_, Bool.eq_false_iff.mpr fun hdigit => ?_⟩
  · rintro rfl
    cases hblank
  · rintro rfl
    cases hblank
  · cases hblank.symm.trans (isBlank_of_isDigit hdigit)

theorem inert_of_sign {sign : List Char} (h : Sign sign) : ∀ c ∈ sign, Inert c := by
  obtain rfl | rfl := h
  · exact nofun
  · exact List.forall_mem_singleton.mpr (by decide)

theorem Kind.inert {word : List Char} {make : UInt32 → Entity} (h : Kind word make) :
    ∀ c ∈ word, Inert c := by
  have hall : word.all (decide <| Inert ·) = true := by
    cases h <;> decide
  exact fun c hc => of_decide_eq_true (List.all_eq_true.mp hall c hc)

theorem colon_not_mem_of_inert {cs : List Char} (h : ∀ c ∈ cs, Inert c) : ':' ∉ cs :=
  fun hmem => (h _ hmem).2.1 rfl

theorem filter_isDigit_of_inert {cs : List Char} (h : ∀ c ∈ cs, Inert c) :
    cs.filter Char.isDigit = [] :=
  List.filter_eq_nil_iff.mpr fun c hc => by simp [(h c hc).2.2]

theorem Number.numeric {number : List Char} {id : UInt32} (h : Number number id) :
    ∀ c ∈ number, Numeric c := by
  obtain ⟨hgap, hsign, hdigits, -⟩ := h
  simp only [List.forall_mem_append]
  refine ⟨fun c hc => Or.inr (Or.inr (hgap c hc)), ?_, fun c hc => Or.inl (hdigits.isDigit c hc)⟩
  obtain rfl | rfl := hsign
  · exact nofun
  · exact fun c hc => Or.inr (Or.inl (List.mem_singleton.mp hc))

/-! ### Reading -/

/-- A text is cut at its first colon. -/
theorem splitColon_append {kind : List Char} (hcolon : ':' ∉ kind) (id : List Char) :
    splitColon (kind ++ ':' :: id) = some (kind, id) := by
  have h : ∀ c ∈ kind, c ≠ ':' := fun c hc heq => hcolon (heq ▸ hc)
  have hdrop : (kind ++ ':' :: id).dropWhile (· ≠ ':') = ':' :: id := by
    rw [List.dropWhile_append_of_pos (by simpa using h)]
    rfl
  have htake : (kind ++ ':' :: id).takeWhile (· ≠ ':') = kind := by
    rw [List.takeWhile_append_of_pos (by simpa using h)]
    simp
  rw [splitColon, hdrop]
  simp only [htake]

theorem eq_append_of_splitColon {cs kind id : List Char} (h : splitColon cs = some (kind, id)) :
    cs = kind ++ ':' :: id := by
  by_cases hcolon : ':' ∈ cs
  · obtain ⟨front, rest, rfl, hfront⟩ := List.eq_append_cons_of_mem hcolon
    rw [splitColon_append hfront] at h
    cases h
    rfl
  · have hne : ∀ c ∈ cs, decide (c ≠ ':') = true := fun c hc =>
      decide_eq_true fun heq => hcolon (heq ▸ hc)
    have hdrop : cs.dropWhile (· ≠ ':') = [] := by
      rw [← List.append_nil cs, List.dropWhile_append_of_pos hne]
      rfl
    rw [splitColon, hdrop] at h
    cases h

section

variable {whole : String} {word cs : List Char} {make : UInt32 → Entity} {e : Entity}

theorem readId_eq_ok_iff :
    readId whole make cs = .ok e ↔ ∃ id, word32? (trim cs) = some id ∧ e = make id := by
  cases hvalue : word32? (trim cs) with
  | none => simp [readId, hvalue]
  | some id => simp [readId, hvalue, eq_comm]

/-- The word in front of the colon decides what is read. -/
theorem ofText_of_kind (hkind : Kind word make)
    (hsplit : splitColon (trim whole.toList) = some (word, cs)) :
    ofText whole = readId whole make cs := by
  simp only [ofText, hsplit]
  cases hkind with
  | user => rw [if_pos rfl]
  | group => rw [if_neg (by decide), if_pos rfl]

theorem exists_kind_of_ofText (h : ofText whole = .ok e)
    (hsplit : splitColon (trim whole.toList) = some (word, cs)) : ∃ make, Kind word make := by
  simp only [ofText, hsplit] at h
  split at h
  · next hword => exact ⟨_, hword ▸ Kind.user⟩
  · split at h
    · next hword => exact ⟨_, hword ▸ Kind.group⟩
    · cases h

/-- A text is read as an entity just when it is a name of it with white space around. -/
theorem ofText_eq_ok_iff : ofText whole = .ok e ↔ ∃ before core after,
    whole.toList = before ++ core ++ after ∧ Blank before ∧ Blank after ∧ Names core e := by
  constructor
  · intro h
    obtain ⟨before, after, hbefore, hafter, hwhole⟩ := exists_eq_trim whole.toList
    cases hsplit : splitColon (trim whole.toList) with
    | none =>
      -- without a colon there is only the star
      simp only [ofText, hsplit] at h
      split at h
      · next hstar =>
        cases h
        exact ⟨before, _, after, hwhole, hbefore, hafter, hstar ▸ .anyone⟩
      · cases h
    | some parts =>
      obtain ⟨word, cs⟩ := parts
      obtain ⟨make, hkind⟩ := exists_kind_of_ofText h hsplit
      rw [ofText_of_kind hkind hsplit] at h
      obtain ⟨id, hvalue, rfl⟩ := readId_eq_ok_iff.mp h
      -- what is trimmed behind the number belongs to the white space behind the whole
      obtain ⟨number, gap, hnumber, hgap, rfl⟩ := word32?_trim_iff.mp hvalue
      rw [eq_append_of_splitColon hsplit] at hwhole
      exact ⟨before, word ++ ':' :: number, gap ++ after, by simp [hwhole], hbefore,
        hgap.append hafter, .numbered hkind hnumber⟩
  · rintro ⟨before, core, after, hwhole, hbefore, hafter, hnames⟩
    have htrim : trim whole.toList = core := by
      rw [hwhole, trim_append hbefore hafter hnames.trimmed]
    cases hnames with
    | anyone =>
      have hnone : splitColon ['*'] = none := rfl
      simp only [ofText, htrim, hnone, if_true]
    | @numbered word number make id hkind hnumber =>
      have hsplit : splitColon (trim whole.toList) = some (word, number) :=
        htrim ▸ splitColon_append (colon_not_mem_of_inert hkind.inert) number
      rw [ofText_of_kind hkind hsplit, readId_eq_ok_iff]
      exact ⟨id, word32?_trim_iff.mpr ⟨number, [], hnumber, blank_nil, by simp⟩, rfl⟩

/-- A number that is not read is blamed on the whole text. -/
theorem readId_cases (whole : String) (make : UInt32 → Entity) (cs : List Char) :
    (∃ e, readId whole make cs = .ok e) ∨ readId whole make cs = .error (.badId whole) := by
  cases hvalue : word32? (trim cs) with
  | none => exact Or.inr (by simp [readId, hvalue])
  | some id => exact Or.inl ⟨make id, by simp [readId, hvalue]⟩

/-- A text that is not read as an entity is refused for its number or for its form. -/
theorem ofText_cases (whole : String) : (∃ e, ofText whole = .ok e)
    ∨ ofText whole = .error (.badId whole) ∨ ofText whole = .error (.badForm whole) := by
  cases hsplit : splitColon (trim whole.toList) with
  | none =>
    simp only [ofText, hsplit]
    split
    · exact Or.inl ⟨anyone, rfl⟩
    · exact Or.inr (Or.inr rfl)
  | some parts =>
    obtain ⟨word, cs⟩ := parts
    simp only [ofText, hsplit]
    split
    · exact (readId_cases whole user cs).imp_right Or.inl
    · split
      · exact (readId_cases whole group cs).imp_right Or.inl
      · exact Or.inr (Or.inr rfl)

end

/-! ### Writing -/

/-- The written form of a numbered entity names it. -/
theorem names_text {word : List Char} {make : UInt32 → Entity} {id : UInt32}
    (hkind : Kind word make) (htext : (make id).text = String.ofList word ++ ":" ++ id.toNat.repr) :
    Names (make id).text.toList (make id) := by
  have hdigits : Numeral id.toNat.repr.toList id.toNat := by
    rw [Nat.repr, String.toList_ofList]
    exact numeral?_eq_some_iff.mp (numeral?_toDigits id.toNat)
  have hnumber : Number id.toNat.repr.toList id := by
    have h := Number.of blank_nil (Or.inl rfl) hdigits (Nat.le_pred_of_lt id.toNat_lt)
    rwa [UInt32.ofNat_toNat] at h
  have hwritten : (make id).text.toList = word ++ ':' :: id.toNat.repr.toList := by
    rw [htext, String.toList_append, String.toList_append, String.toList_ofList]
    simp
  exact hwritten ▸ .numbered hkind hnumber

/-- An entity is read back from its written form. -/
theorem ofText_text (e : Entity) : ofText e.text = .ok e := by
  rw [ofText_eq_ok_iff]
  refine ⟨[], e.text.toList, [], by simp, blank_nil, blank_nil, ?_⟩
  cases e with
  | anyone => exact .anyone
  | user id => exact names_text .user rfl
  | group id => exact names_text .group rfl

/-! ### What is never read -/

/-- What holds of every text that is read as an entity, wherever its characters stand. -/
structure Tidy (cs : List Char) : Prop where
  minus : '-' ∉ cs
  colons : cs.count ':' ≤ 1
  /-- Nothing behind a colon is part of a name. -/
  behind : ∀ kind number, cs = kind ++ ':' :: number → ∀ c ∈ number, Numeric c
  /-- No digits in it make a number that needs more than 32 bits. -/
  small : ∀ digits n, digits <:+: cs → Numeral digits n → n < 2 ^ 32

section

variable {front behind : List Char}

/-- Without digits and colons there is nothing that could be untidy. -/
theorem tidy_of_inert (h : ∀ c ∈ front, Inert c) : Tidy front where
  minus hmem := (h _ hmem).1 rfl
  colons := by
    rw [List.count_eq_zero.mpr (colon_not_mem_of_inert h)]
    exact Nat.zero_le 1
  behind := by
    rintro kind number rfl
    exact absurd (by simp) (colon_not_mem_of_inert h)
  small := by
    intro digits n hpart hdigits
    obtain ⟨c, hc⟩ := List.exists_mem_of_ne_nil digits hdigits.ne_nil
    cases (hdigits.isDigit c hc).symm.trans (h c (hpart.subset hc)).2.2

/-- If all digits stand behind the only colon, their value bounds every number in the text. -/
theorem tidy_of_colon (hfront : ∀ c ∈ front, Inert c) (hbehind : ∀ c ∈ behind, Numeric c)
    {n : Nat} (hvalue : Numeral (behind.filter Char.isDigit) n) (hfits : n < 2 ^ 32) :
    Tidy (front ++ ':' :: behind) := by
  have hminus : ¬ Numeric '-' := by decide
  have hcolon : ¬ Numeric ':' := by decide
  have hfilter : (front ++ ':' :: behind).filter Char.isDigit = behind.filter Char.isDigit := by
    rw [List.filter_append, filter_isDigit_of_inert hfront]
    rfl
  have hcount : (front ++ ':' :: behind).count ':' = 1 := by
    rw [List.count_append, List.count_cons_self,
      List.count_eq_zero.mpr (colon_not_mem_of_inert hfront),
      List.count_eq_zero.mpr fun hmem => hcolon (hbehind _ hmem)]
  refine ⟨?_, Nat.le_of_eq hcount, ?_, ?_⟩
  · rw [List.mem_append, List.mem_cons]
    rintro (hmem | heq | hmem)
    · exact (hfront _ hmem).1 rfl
    · cases heq
    · exact hminus (hbehind _ hmem)
  · intro kind number heq
    have hkind : ':' ∉ kind := fun hmem => by
      rw [heq, List.count_append, List.count_cons_self] at hcount
      have hpos : 0 < kind.count ':' := List.count_pos_iff.mpr hmem
      omega
    -- the first colon is the only one, so both cuts are the same
    have hcut := splitColon_append hkind number
    rw [← heq, splitColon_append (colon_not_mem_of_inert hfront)] at hcut
    cases hcut
    exact hbehind
  · intro digits m hpart hdigits
    -- digits that stand together in the text do so among its digits alone
    have hinner := hpart.filter Char.isDigit
    rw [List.filter_eq_self.mpr hdigits.isDigit, hfilter] at hinner
    exact Nat.lt_of_le_of_lt (hdigits.le_of_infix hvalue hinner) hfits

end

/-- White space around a name brings nothing untidy into it. -/
theorem Names.tidy {before core after : List Char} {e : Entity} (h : Names core e)
    (hbefore : Blank before) (hafter : Blank after) : Tidy (before ++ core ++ after) := by
  cases h with
  | anyone =>
    have hstar : ∀ c ∈ ['*'], Inert c := List.forall_mem_singleton.mpr (by decide)
    exact tidy_of_inert (List.forall_mem_append.mpr
      ⟨List.forall_mem_append.mpr ⟨inert_of_blank hbefore, hstar⟩, inert_of_blank hafter⟩)
  | @numbered word number _ _ hkind hnumber =>
    -- the white space around the name goes to the sides of its colon
    have hregroup : before ++ (word ++ ':' :: number) ++ after
        = (before ++ word) ++ ':' :: (number ++ after) := by
      simp only [List.append_assoc, List.cons_append]
    have hfront : ∀ c ∈ before ++ word, Inert c :=
      List.forall_mem_append.mpr ⟨inert_of_blank hbefore, hkind.inert⟩
    have hbehind : ∀ c ∈ number ++ after, Numeric c :=
      List.forall_mem_append.mpr ⟨hnumber.numeric, fun c hc => Or.inr (Or.inr (hafter c hc))⟩
    cases hnumber with
    | @of gap sign digits n hgap hsign hdigits hfits =>
      have hvalue : (gap ++ (sign ++ digits) ++ after).filter Char.isDigit = digits := by
        simp only [List.filter_append, filter_isDigit_of_inert (inert_of_blank hgap),
          filter_isDigit_of_inert (inert_of_sign hsign),
          filter_isDigit_of_inert (inert_of_blank hafter),
          List.filter_eq_self.mpr hdigits.isDigit, List.nil_append, List.append_nil]
      rw [hregroup]
      exact tidy_of_colon hfront hbehind (hvalue.symm ▸ hdigits) (by omega)

/-- Reading an entity accepts just the names of entities with white space around them: a star,
    or the word for a user or a group, a colon, white space, a plus sign or none, and digits
    whose value fits 32 bits, which is then the number that is read. The written form of every
    entity is read back. A text with a minus sign, with a second colon, with part of a name
    behind a colon, or with a number in it that does not fit is refused, and the refusal shows
    the text. -/
theorem read_exactly_as_named :
    (∀ whole e, ofText whole = .ok e ↔ ∃ before core after,
      whole.toList = before ++ core ++ after ∧ Blank before ∧ Blank after ∧ Names core e)
    ∧ (∀ e, ofText e.text = .ok e)
    ∧ ∀ whole, (∃ e, ofText whole = .ok e) ∧ Tidy whole.toList
      ∨ ofText whole = .error (.badId whole) ∨ ofText whole = .error (.badForm whole) := by
  refine ⟨fun whole e => ofText_eq_ok_iff, ofText_text, fun whole => ?_⟩
  obtain ⟨e, hread⟩ | hfault := ofText_cases whole
  · obtain ⟨before, core, after, hwhole, hbefore, hafter, hnames⟩ := ofText_eq_ok_iff.mp hread
    exact Or.inl ⟨⟨e, hread⟩, hwhole ▸ hnames.tidy hbefore hafter⟩
  · exact Or.inr hfault

/-- Zeros and a plus sign are read over; the first number that does not fit is refused. -/
example : ofText "\u2003user:\u00a0+007\n" = .ok (user 7)
    ∧ ofText "user:4294967296" = .error (.badId "user:4294967296") :=
  ⟨rfl, rfl⟩

end KeyBroker.Entity
