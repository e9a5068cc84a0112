import KeyBroker.Proofs.Toml.Scalars

/-! # The lines of a TOML document read back

  A document that is written line by line: every line is blank, or is a statement that is
  read as it stands. Such a document is read as its statements, whatever they are. Of the
  statements, those are told here that a writer of plain documents needs: headers, and names
  with a text, a number, or an array of texts that has a line for each.
-/

namespace KeyBroker.Toml

/-! ### Blanks -/

/-- A character with which something starts: no blank, no line break, no comment, and not the
    mark of an encoding. -/
structure Solid (c : Char) : Prop where
  gap : isGap c = false
  comment : c ≠ '#'
  feed : c ≠ '\n'
  back : c ≠ '\r'
  mark : c ≠ '\ufeff'

instance (c : Char) : Decidable (Solid c) :=
  decidable_of_iff (isGap c = false ∧ c ≠ '#' ∧ c ≠ '\n' ∧ c ≠ '\r' ∧ c ≠ '\ufeff')
    ⟨fun ⟨gap, comment, feed, back, mark⟩ => ⟨gap, comment, feed, back, mark⟩,
      fun ⟨gap, comment, feed, back, mark⟩ => ⟨gap, comment, feed, back, mark⟩⟩

theorem solid_of_isBare {c : Char} (h : isBare c = true) : Solid c := by
  obtain ⟨hgap, -, -, -, hcomment, hfeed, hreturn⟩ := of_isBare h
  refine ⟨hgap, hcomment, hfeed, hreturn, ?_⟩
  rintro rfl
  cases h

variable {c : Char} {rest : List Char}

/-- It starts no comment, -/
theorem Solid.skipComment (h : Solid c) (rest : List Char) :
    skipComment (c :: rest) = c :: rest := by
  rw [Toml.skipComment]
  rintro _ ⟨⟩
  exact h.comment rfl

/-- and no line break, -/
theorem Solid.skipBreak? (h : Solid c) (rest : List Char) : skipBreak? (c :: rest) = none := by
  rw [Toml.skipBreak?]
  · rintro _ ⟨⟩
    exact h.feed rfl
  · rintro _ ⟨⟩
    exact h.back rfl

/-- so the line does not end before it, -/
theorem Solid.endLine? (h : Solid c) (rest : List Char) : endLine? (c :: rest) = none := by
  rw [Toml.endLine?, skipGap_of_not h.gap, h.skipComment]
  exact h.skipBreak? rest

/-- and there is no line to be skipped before it. -/
theorem skipLines_solid (h : Solid c) (steps : Nat) (rest : List Char) :
    skipLines steps (c :: rest) = c :: rest := by
  cases steps with
  | zero => rfl
  | succ steps => rw [skipLines, skipGap_of_not h.gap, h.skipComment, h.skipBreak?]

/-- A line break is skipped, and the blanks in front of what comes next. -/
theorem skipLines_indented (h : Solid c) (steps : Nat) (rest : List Char) :
    skipLines (steps + 2) ('\n' :: ("    ".toList ++ c :: rest)) = c :: rest := by
  have hskip : skipGap ("    ".toList ++ c :: rest) = c :: rest := skipGap_of_not h.gap rest
  show skipLines (steps + 1) ("    ".toList ++ c :: rest) = _
  rw [skipLines, hskip, h.skipComment, h.skipBreak?]

theorem solid_comma : Solid ',' := by decide

theorem solid_bracket : Solid ']' := by decide

/-! ### Values -/

/-- A text starts with a quote of one kind or the other. -/
theorem writeText_head (cs : List Char) :
    ∃ q more, writeText cs = q :: more ∧ (q = '"' ∨ q = '\x27') := by
  unfold writeText
  dsimp only
  split
  · exact ⟨_, _, rfl, Or.inl rfl⟩
  split
  · exact ⟨_, _, rfl, Or.inr rfl⟩
  split
  · exact ⟨_, _, rfl, Or.inl rfl⟩
  split
  · exact ⟨_, _, rfl, Or.inr rfl⟩
  split
  · exact ⟨_, _, rfl, Or.inl rfl⟩
  · exact ⟨_, _, rfl, Or.inl rfl⟩

theorem solid_of_quote (h : c = '"' ∨ c = '\x27') : Solid c := by
  rcases h with rfl | rfl <;> decide

theorem readValue_text (steps room : Nat) (s : String) (hrest : Ended rest) :
    readValue steps (room + 1) (writeText s.toList ++ rest) = some (.text s, rest) := by
  have hread := readText_writeText s.toList hrest.unquoted
  obtain ⟨q, more, heq, hq⟩ := writeText_head s.toList
  rw [heq, List.cons_append] at hread ⊢
  rw [readValue]
  · simp only [hread, String.ofList_toList]
  all_goals
    rintro _ ⟨⟩
    revert hq
    decide

theorem readValue_number (steps room : Nat) {n : Nat} (hsmall : n < 0x8000000000000000)
    (hrest : Ended rest) :
    readValue steps (room + 1) (Nat.toDigits 10 n ++ rest) = some (.integer n, rest) := by
  have hread := readNumeric_toDigits hsmall hrest
  obtain ⟨d, more, heq, hdigit⟩ := Text.toDigits_cons n
  rw [heq, List.cons_append] at hread ⊢
  have htext : readText (d :: (more ++ rest)) = none := by
    rw [readText, readShortText]
    all_goals
      intro _ hquote
      obtain rfl := (List.cons.inj hquote).1
      cases hdigit
  rw [readValue]
  · simp only [htext, hread]
  all_goals
    rintro _ ⟨⟩
    cases hdigit

/-- A text with a line of its own. -/
def itemLine (s : String) : List Char := "    ".toList ++ writeText s.toList ++ [',', '\n']

/-- An item is read, and those behind its comma, -/
theorem readItems_more {read : List Char → Option (Toml × List Char)} {steps : Nat}
    {cs tail r after : List Char} {item : Toml} {items : List Toml}
    (hskip : skipLines steps cs = c :: tail) (hc : c ≠ ']')
    (hread : read (c :: tail) = some (item, r)) (hafter : skipLines steps r = ',' :: after)
    (hmore : readItems read steps after = some (items, rest)) :
    readItems read (steps + 1) cs = some (item :: items, rest) := by
  rw [readItems, hskip]
  split
  · next heq => exact absurd (List.cons.inj heq).1 hc
  · simp only [hread, hafter, hmore, Option.map_some]

/-- and an item with a bracket behind it is the last one. -/
theorem readItems_last {read : List Char → Option (Toml × List Char)} {steps : Nat}
    {cs tail r : List Char} {item : Toml} (hskip : skipLines steps cs = c :: tail) (hc : c ≠ ']')
    (hread : read (c :: tail) = some (item, r)) (hafter : skipLines steps r = ']' :: rest) :
    readItems read (steps + 1) cs = some ([item], rest) := by
  rw [readItems, hskip]
  split
  · next heq => exact absurd (List.cons.inj heq).1 hc
  · simp only [hread, hafter]

/-- Texts with a line each are read to the bracket behind the last of them. -/
theorem readItems_lines (size room : Nat) {steps : Nat} {l : List String}
    (hsteps : l.length + 2 ≤ steps) (rest : List Char) :
    readItems (readValue size (room + 1)) steps ('\n' :: (l.flatMap itemLine ++ ']' :: rest))
      = some (l.map .text, rest) := by
  -- an item takes a step and leaves the line break behind its comma, where the next one starts
  induction l generalizing steps with
  | nil =>
    obtain ⟨steps, rfl⟩ : ∃ n, steps = n + 2 := ⟨steps - 2, by omega⟩
    have hskip : skipLines (steps + 1) ('\n' :: ']' :: rest) = ']' :: rest :=
      skipLines_solid solid_bracket steps rest
    show readItems _ (steps + 1 + 1) ('\n' :: ']' :: rest) = _
    rw [readItems, hskip]
    rfl
  | cons s l ih =>
    obtain ⟨steps, rfl⟩ : ∃ n, steps = n + 3 := ⟨steps - 3, by rw [List.length_cons] at hsteps; omega⟩
    have hroom : l.length + 2 ≤ steps + 2 := by
      simp only [List.length_cons] at hsteps
      omega
    have hmore := ih hroom
    obtain ⟨q, more, heq, hq⟩ := writeText_head s.toList
    -- the first item, and what is left behind it
    have hline : '\n' :: ((s :: l).flatMap itemLine ++ ']' :: rest) = '\n' :: ("    ".toList
        ++ q :: (more ++ ',' :: '\n' :: (l.flatMap itemLine ++ ']' :: rest))) := by
      simp [itemLine, heq]
    have hended : Ended (',' :: '\n' :: (l.flatMap itemLine ++ ']' :: rest)) :=
      ⟨_, _, rfl, Or.inl rfl⟩
    have hread := readValue_text size room s hended
    rw [heq, List.cons_append] at hread
    have hcomma := skipLines_solid solid_comma (steps + 2)
      ('\n' :: (l.flatMap itemLine ++ ']' :: rest))
    have hbracket : q ≠ ']' := by
      rcases hq with rfl | rfl <;> decide
    rw [hline]
    exact readItems_more (skipLines_indented (solid_of_quote hq) _ _) hbracket hread hcomma hmore

/-- Items in brackets are an array. -/
theorem readValue_array {size room : Nat} {r : List Char} {items : List Toml}
    (h : readItems (readValue size (room + 1)) size r = some (items, rest)) :
    readValue size (room + 2) ('[' :: r) = some (.array items, rest) := by
  rw [readValue, if_neg (Nat.succ_ne_zero room), h]
  rfl

/-! ### Statements -/

/-- A name with its value is an entry. -/
theorem readStatement_entry {size : Nat} {name : String} (hname : Bare name) {c : Char}
    {written : List Char} {v : Toml} (hsolid : isGap c = false)
    (hvalue : readValue size depthLimit (c :: written) = some (v, rest)) :
    readStatement size (name.toList ++ ([' ', '=', ' '] ++ c :: written))
      = some (.entry ⟨name, []⟩ v, rest) := by
  have hkey := readKey_bare hname ([' ', '=', ' '] ++ c :: written) (by rintro _ ⟨⟩; decide) nofun
  have hleft : readLeft (name.toList ++ ([' ', '=', ' '] ++ c :: written))
      = some (⟨name, []⟩, c :: written) := by
    rw [readLeft, hkey]
    show some (_, skipGap (' ' :: c :: written)) = _
    rw [show skipGap (' ' :: c :: written) = skipGap (c :: written) from rfl, skipGap_of_not hsolid]
  obtain ⟨d, r, heq, hbare⟩ := hname.head ([' ', '=', ' '] ++ c :: written)
  rw [heq] at hleft ⊢
  rw [readStatement]
  · simp only [hleft, hvalue, Option.map_some]
  all_goals
    rintro _ ⟨⟩
    cases hbare

/-- A name in brackets is a header, -/
theorem readStatement_table (size : Nat) {name : String} (hname : Bare name) (rest : List Char) :
    readStatement size ('[' :: (name.toList ++ ']' :: rest)) = some (.table ⟨name, []⟩, rest) := by
  have hkey := readKey_bare hname (']' :: rest) (by rintro _ ⟨⟩; decide) nofun
  obtain ⟨d, r, heq, hbare⟩ := hname.head (']' :: rest)
  rw [heq] at hkey ⊢
  rw [readStatement]
  · rw [hkey]
    rfl
  · rintro _ ⟨⟩
    cases hbare

/-- and in double brackets one of a series. -/
theorem readStatement_series (size : Nat) {name : String} (hname : Bare name)
    (rest : List Char) :
    readStatement size ('[' :: '[' :: (name.toList ++ ']' :: ']' :: rest))
      = some (.series ⟨name, []⟩, rest) := by
  have hkey := readKey_bare hname (']' :: ']' :: rest) (by rintro _ ⟨⟩; decide) nofun
  rw [readStatement, hkey]
  rfl

/-! ### Documents -/

/-- A document that is written line by line, and its statements. A statement is read from its
    line in every document that is no shorter than the line. -/
inductive Lines : (cs : List Char) → List Statement → Prop where
  | nil : Lines [] []
  | blank (cs : List Char) (l : List Statement) (hrest : Lines cs l) : Lines ('\n' :: cs) l
  | statement (c : Char) (line : List Char) (s : Statement) (cs : List Char) (l : List Statement)
      (hsolid : Solid c)
      (hread : ∀ size rest, (c :: line).length ≤ size →
        readStatement size (c :: line ++ '\n' :: rest) = some (s, '\n' :: rest))
      (hrest : Lines cs l) : Lines (c :: line ++ '\n' :: cs) (s :: l)

variable {cs ds : List Char} {l m : List Statement}

theorem Lines.append (h : Lines cs l) (hmore : Lines ds m) : Lines (cs ++ ds) (l ++ m) := by
  induction h with
  | nil => exact hmore
  | blank cs l hrest ih => exact .blank _ _ ih
  | statement c line s cs l hsolid hread hrest ih =>
    rw [List.append_assoc]
    exact .statement c line s _ _ hsolid hread ih

theorem Lines.readStatements (h : Lines cs l) {size steps : Nat} (hsize : cs.length ≤ size)
    (hsteps : cs.length ≤ steps) : readStatements size steps cs = some l := by
  -- a line takes one step and is no shorter than that, so the steps last to the end, while the
  -- size stays that of the whole document
  induction h generalizing steps with
  | nil => rw [Toml.readStatements]
  | blank cs l hrest ih =>
    obtain ⟨steps, rfl⟩ : ∃ n, steps = n + 1 := ⟨steps - 1, by simp at hsteps; omega⟩
    have hroom : cs.length ≤ steps := by simpa using hsteps
    have hrest := ih (Nat.le_of_succ_le hsize) hroom
    rw [Toml.readStatements]
    · exact hrest
    · nofun
  | statement c line s cs l hsolid hread hrest ih =>
    obtain ⟨steps, rfl⟩ : ∃ n, steps = n + 1 := ⟨steps - 1, by simp at hsteps; omega⟩
    simp only [List.length_append, List.length_cons] at hsize hsteps
    have hline : (c :: line).length ≤ size := by
      rw [List.length_cons]
      omega
    have hroom : cs.length ≤ steps := by omega
    have hrest := ih (by omega) hroom
    have hskip : skipGap (c :: line ++ '\n' :: cs) = c :: line ++ '\n' :: cs :=
      skipGap_of_not hsolid.gap _
    have hnone : endLine? (c :: line ++ '\n' :: cs) = none := hsolid.endLine? _
    have hend : endLine? ('\n' :: cs) = some cs := rfl
    rw [Toml.readStatements]
    · simp only [hnone, hskip, hread size cs hline, hend, hrest,
        Option.map_some]
    · nofun

/-- A document is read as the statements that are written in it. -/
theorem Lines.statements? (h : Lines cs l) : statements? cs = some l := by
  have hmark : dropMark cs = cs := by
    cases h with
    | nil => rfl
    | blank cs l hrest => rfl
    | statement c line s cs l hsolid hread hrest =>
      rw [List.cons_append, dropMark]
      rintro _ ⟨⟩
      exact hsolid.mark rfl
  rw [Toml.statements?, hmark]
  exact h.readStatements (Nat.le_refl _) (Nat.le_refl _)

end KeyBroker.Toml
