import Mathlib.Data.List.DropRight
import KeyBroker.Proofs.Json.Scalars

/-! # JSON read back

  The reader gives back every value that a writer can have written, and stops where the value
  ends. A value is written over several lines, so blanks may stand in front of it; what stands
  behind it is nothing, a comma or the end of a line, and none of them continues a number.
  The reader takes no more steps than the written form is long, because every item takes at
  least the line break before it.
-/

namespace KeyBroker.Json

/-! ### Blanks -/

/-- Blanks alone. -/
def Gap (cs : List Char) : Prop := ∀ c ∈ cs, isGap c = true

theorem gap_nil : Gap [] := by
  intro c hc
  cases hc

theorem Gap.cons {c : Char} {cs : List Char} (hc : isGap c = true) (h : Gap cs) :
    Gap (c :: cs) := by
  intro d hd
  rcases List.mem_cons.mp hd with rfl | hd
  · exact hc
  · exact h d hd

/-- Inside a value there are two blanks more. -/
theorem Gap.deeper {indent : List Char} (h : Gap indent) : Gap (' ' :: ' ' :: indent) :=
  (h.cons rfl).cons rfl

/-- Blanks are skipped, up to what is none. -/
theorem skipGap_append {gap rest : List Char} (h : Gap gap) :
    skipGap (gap ++ rest) = skipGap rest :=
  List.dropWhile_append_of_pos h

theorem skipGap_cons {c : Char} (h : isGap c = false) (rest : List Char) :
    skipGap (c :: rest) = c :: rest := by
  rw [skipGap, List.dropWhile_cons_of_neg (by rw [h]; decide)]

/-- The line break in front of an item, and what it is moved in by. -/
theorem skipGap_line {indent : List Char} (h : Gap indent) (rest : List Char) :
    skipGap ('\n' :: indent ++ rest) = skipGap rest :=
  skipGap_append (h.cons rfl)

/-- Blanks in front of a value do not matter, -/
theorem readValue_of_skipGap {steps : Nat} {cs ds : List Char} (h : skipGap cs = skipGap ds) :
    readValue steps cs = readValue steps ds := by
  cases steps with
  | zero => rfl
  | succ steps =>
    rw [readValue, readValue, h]

/-- nor in front of items, -/
theorem readItems_of_skipGap {steps : Nat} {cs ds : List Char} (h : skipGap cs = skipGap ds) :
    readItems steps cs = readItems steps ds := by
  cases steps with
  | zero => rfl
  | succ steps => rw [readItems, readItems, readValue_of_skipGap h]

/-- nor in front of fields. -/
theorem readFields_of_skipGap {steps : Nat} {cs ds : List Char} (h : skipGap cs = skipGap ds) :
    readFields steps cs = readFields steps ds := by
  cases steps with
  | zero => rfl
  | succ steps => rw [readFields, readFields, h]

/-! ### Values -/

/-- The values that a writer can have written: numbers without a sign, and texts and names that
    stand for something. -/
inductive Written : Json → Prop where
  | null : Written .null
  | bool (value : Bool) : Written (.bool value)
  | number (n : Nat) : Written (.number (Nat.toDigits 10 n))
  | text (s : String) : Written (.ofString s)
  | array (items : List Json) (hitems : ∀ v ∈ items, Written v) : Written (.array items)
  | object (fields : List (List Char × Json)) (hnames : ∀ f ∈ fields, ∃ cs, f.1 = escape cs)
      (hvalues : ∀ f ∈ fields, Written f.2) : Written (.object fields)

/-- What is written of a value starts with no blank, and not like the end of an array. -/
theorem Written.head {v : Json} (h : Written v) (indent : List Char) :
    ∃ c rest, render indent v = c :: rest ∧ isGap c = false ∧ c ≠ ']' := by
  have hblock : ∀ opening closing items, ∃ rest, block opening closing indent items
      = opening :: rest := by
    intro opening closing items
    cases items with
    | nil => exact ⟨_, rfl⟩
    | cons item items => exact ⟨_, rfl⟩
  cases h with
  | null => exact ⟨'n', _, rfl, rfl, by decide⟩
  | bool value =>
    cases value with
    | true => exact ⟨'t', _, rfl, rfl, by decide⟩
    | false => exact ⟨'f', _, rfl, rfl, by decide⟩
  | number n =>
    obtain ⟨d, more, hdigits, hdigit⟩ := Text.toDigits_cons n
    obtain ⟨-, -, -, -, -, -, -, hclosing, hgap⟩ := of_isDigit hdigit
    exact ⟨d, more, hdigits, hgap, hclosing⟩
  | text s => exact ⟨'"', _, rfl, rfl, by decide⟩
  | array items hitems =>
    obtain ⟨rest, hrest⟩ := hblock '[' ']' (renderItems (' ' :: ' ' :: indent) items)
    exact ⟨'[', rest, by rw [render]; exact hrest, rfl, by decide⟩
  | object fields hnames hvalues =>
    obtain ⟨rest, hrest⟩ := hblock '\x7b' '\x7d' (renderFields (' ' :: ' ' :: indent) fields)
    exact ⟨'\x7b', rest, by rw [render]; exact hrest, rfl, by decide⟩

/-- A value is read back from its written form, in as many steps as that is long. -/
def ReadsBack (v : Json) : Prop :=
  ∀ indent steps rest, Gap indent → (render indent v).length ≤ steps → Apart rest →
    readValue steps (render indent v ++ rest) = some (v, rest)

theorem readsBack_null : ReadsBack .null := by
  intro indent steps rest _ hsteps _
  cases steps with
  | zero => cases hsteps
  | succ steps => rfl

theorem readsBack_bool (value : Bool) : ReadsBack (.bool value) := by
  intro indent steps rest _ hsteps _
  cases value with
  | true =>
    cases steps with
    | zero => cases hsteps
    | succ steps => rfl
  | false =>
    cases steps with
    | zero => cases hsteps
    | succ steps => rfl

theorem readsBack_text (s : String) : ReadsBack (.ofString s) := by
  intro indent steps rest _ hsteps _
  cases steps with
  | zero => cases hsteps
  | succ steps =>
    have hread := readText_escape s.toList [] rest
    show readValue (steps + 1) ('"' :: (escape s.toList ++ ['"']) ++ rest) = _
    rw [List.cons_append, List.append_assoc, readValue, skipGap_cons rfl]
    show (readText [] (escape s.toList ++ '"' :: rest)).map _ = _
    rw [hread]
    rfl

theorem readsBack_number (n : Nat) : ReadsBack (.number (Nat.toDigits 10 n)) := by
  intro indent steps rest _ hsteps hrest
  rw [render] at hsteps ⊢
  have hread := readNumber_toDigits n hrest
  obtain ⟨d, more, hmore, hdigit⟩ := Text.toDigits_cons n
  obtain ⟨-, hquote, hbracket, hbrace, hn, ht, hf, -, hgap⟩ := of_isDigit hdigit
  cases steps with
  | zero =>
    have hpositive : 0 < (Nat.toDigits 10 n).length := Nat.length_toDigits_pos
    omega
  | succ steps =>
    rw [hmore, List.cons_append] at hread ⊢
    rw [readValue, skipGap_cons hgap]
    -- the first digit starts none of the other values
    split
    · next heq => exact absurd (List.cons.inj heq).1 hquote
    · next heq => exact absurd (List.cons.inj heq).1 hbracket
    · next heq => exact absurd (List.cons.inj heq).1 hbrace
    · next heq => exact absurd (List.cons.inj heq).1 hn
    · next heq => exact absurd (List.cons.inj heq).1 ht
    · next heq => exact absurd (List.cons.inj heq).1 hf
    · rw [hread]
      rfl

/-! ### Arrays -/

/-- What stands behind the last item: a line break, and the closing bracket. -/
theorem skipGap_closing {outer : List Char} (houter : Gap outer) {closing : Char}
    (hclosing : isGap closing = false) (rest : List Char) :
    skipGap ('\n' :: outer ++ closing :: rest) = closing :: rest := by
  rw [skipGap_line houter, skipGap_cons hclosing]

/-- An item on a line of its own is read back. -/
theorem ReadsBack.line {v : Json} (h : ReadsBack v) (steps : Nat) {indent rest : List Char}
    (hindent : Gap indent) (hsteps : (render indent v).length ≤ steps) (hrest : Apart rest) :
    readValue steps ('\n' :: indent ++ (render indent v ++ rest)) = some (v, rest) := by
  rw [readValue_of_skipGap (skipGap_line hindent _)]
  exact h indent steps rest hindent hsteps hrest

theorem readItems_last {steps : Nat} {cs tail rest : List Char} {v : Json}
    (hread : readValue steps cs = some (v, tail)) (htail : skipGap tail = ']' :: rest) :
    readItems (steps + 1) cs = some ([v], rest) := by
  simp only [readItems, hread, htail]

theorem readItems_more {steps : Nat} {cs tail after rest : List Char} {v : Json}
    {items : List Json} (hread : readValue steps cs = some (v, tail))
    (htail : skipGap tail = ',' :: after) (hmore : readItems steps after = some (items, rest)) :
    readItems (steps + 1) cs = some (v :: items, rest) := by
  simp only [readItems, hread, htail, hmore]
  rfl

/-- The items of an array are read back, with the bracket behind them. -/
theorem readItems_lines {indent outer : List Char} (rest : List Char) {items : List Json}
    (steps : Nat) (hindent : Gap indent) (houter : Gap outer) (hne : items ≠ [])
    (hitems : ∀ v ∈ items, ReadsBack v)
    (hsteps : (lines indent (renderItems indent items)).length ≤ steps) :
    readItems steps
        (lines indent (renderItems indent items) ++ ('\n' :: outer ++ ']' :: rest))
      = some (items, rest) := by
  -- each item takes one step, and its line break pays for it
  induction items generalizing steps with
  | nil => exact absurd rfl hne
  | cons v more ih =>
    have hv : ReadsBack v := hitems v List.mem_cons_self
    cases more with
    | nil =>
      have hlines : lines indent (renderItems indent [v])
          = '\n' :: indent ++ render indent v := rfl
      rw [hlines] at hsteps ⊢
      simp only [List.length_append, List.length_cons] at hsteps
      obtain ⟨steps, rfl⟩ : ∃ n, steps = n + 1 := ⟨steps - 1, by omega⟩
      have hread := hv.line steps hindent (by omega) (apart_newline (outer ++ ']' :: rest))
      rw [List.append_assoc]
      exact readItems_last hread (skipGap_closing houter rfl rest)
    | cons w more =>
      have hlines : lines indent (renderItems indent (v :: w :: more))
          = '\n' :: indent ++ render indent v
            ++ ',' :: lines indent (renderItems indent (w :: more)) := rfl
      rw [hlines] at hsteps ⊢
      simp only [List.length_append, List.length_cons] at hsteps
      obtain ⟨steps, rfl⟩ : ∃ n, steps = n + 1 := ⟨steps - 1, by omega⟩
      have hread := hv.line steps hindent (by omega) (apart_comma
        (lines indent (renderItems indent (w :: more)) ++ ('\n' :: outer ++ ']' :: rest)))
      have hmore := ih steps (List.cons_ne_nil w more)
        (fun x hx => hitems x (List.mem_cons_of_mem _ hx)) (by omega)
      rw [List.append_assoc, List.append_assoc, List.cons_append]
      exact readItems_more hread (skipGap_cons rfl _) hmore

/-- The items start with the first value, so an array that has some is not closed at once. -/
theorem skipGap_lines {indent : List Char} (rest : List Char) {v : Json} (more : List Json)
    (hindent : Gap indent) (hv : Written v) :
    ∃ c tail, skipGap (lines indent (renderItems indent (v :: more)) ++ rest) = c :: tail
      ∧ c ≠ ']' := by
  obtain ⟨c, tail, hrender, hgap, hne⟩ := hv.head indent
  have hfirst : ∃ after, lines indent (renderItems indent (v :: more))
      = '\n' :: indent ++ (render indent v ++ after) := by
    cases more with
    | nil => exact ⟨[], by rw [List.append_nil]; rfl⟩
    | cons w more =>
      refine ⟨',' :: lines indent (renderItems indent (w :: more)), ?_⟩
      rw [← List.append_assoc]
      rfl
  obtain ⟨after, hafter⟩ := hfirst
  rw [hafter, List.append_assoc, skipGap_line hindent, hrender]
  exact ⟨c, _, skipGap_cons hgap _, hne⟩

theorem readValue_array {steps : Nat} {r tail rest : List Char} {c : Char} {items : List Json}
    (hskip : skipGap r = c :: tail) (hne : c ≠ ']')
    (hread : readItems steps r = some (items, rest)) :
    readValue (steps + 1) ('[' :: r) = some (array items, rest) := by
  have hsame : readItems steps (c :: tail) = some (items, rest) := by
    rw [← hread, ← hskip]
    exact readItems_of_skipGap (List.dropWhile_idempotent ..)
  rw [readValue, skipGap_cons rfl]
  simp only [hskip]
  split
  · next heq => exact absurd (List.cons.inj heq).1 hne
  · rw [hsame]
    rfl

theorem readsBack_array {items : List Json} (hwritten : ∀ v ∈ items, Written v)
    (hitems : ∀ v ∈ items, ReadsBack v) : ReadsBack (.array items) := by
  intro indent steps rest hindent hsteps hrest
  cases items with
  | nil =>
    cases steps with
    | zero => cases hsteps
    | succ steps => rfl
  | cons v more =>
    have hrender : render indent (.array (v :: more)) ++ rest
        = '[' :: (lines (' ' :: ' ' :: indent) (renderItems (' ' :: ' ' :: indent) (v :: more))
          ++ ('\n' :: indent ++ ']' :: rest)) := by
      rw [render]
      simp [block, renderItems]
    have hlength : (lines (' ' :: ' ' :: indent)
        (renderItems (' ' :: ' ' :: indent) (v :: more))).length + 1 ≤ steps := by
      have hwhole := congrArg List.length hrender
      simp only [List.length_append, List.length_cons] at hwhole
      omega
    obtain ⟨steps, rfl⟩ : ∃ n, steps = n + 1 := ⟨steps - 1, by omega⟩
    have hread := readItems_lines rest steps hindent.deeper hindent (List.cons_ne_nil v more)
      hitems (by omega)
    obtain ⟨c, tail, hskip, hne⟩ := skipGap_lines ('\n' :: indent ++ ']' :: rest) more
      hindent.deeper (hwritten v List.mem_cons_self)
    rw [hrender]
    exact readValue_array hskip hne hread

/-! ### Objects -/

/-- What the reader finds of a field: its name, a colon, its value, and what stands behind it. -/
def ReadsField (steps : Nat) (cs : List Char) (name : List Char) (v : Json)
    (tail : List Char) : Prop :=
  ∃ raw after, skipGap cs = '"' :: raw
    ∧ readText [] raw = some (name, ':' :: after) ∧ readValue steps after = some (v, tail)

theorem readFields_last {steps : Nat} {cs tail rest name : List Char} {v : Json}
    (h : ReadsField steps cs name v tail) (htail : skipGap tail = '\x7d' :: rest) :
    readFields (steps + 1) cs = some ([(name, v)], rest) := by
  obtain ⟨raw, after, hskip, hname, hread⟩ := h
  have hcolon : skipGap (':' :: after) = ':' :: after := skipGap_cons rfl after
  simp only [readFields, hskip, hname, hcolon, hread, htail]

theorem readFields_more {steps : Nat} {cs tail after rest name : List Char} {v : Json}
    {fields : List (List Char × Json)} (h : ReadsField steps cs name v tail)
    (htail : skipGap tail = ',' :: after) (hmore : readFields steps after = some (fields, rest)) :
    readFields (steps + 1) cs = some ((name, v) :: fields, rest) := by
  obtain ⟨raw, value, hskip, hname, hread⟩ := h
  have hcolon : skipGap (':' :: value) = ':' :: value := skipGap_cons rfl value
  simp only [readFields, hskip, hname, hcolon, hread, htail, hmore]
  rfl

/-- A field on a line of its own is read back. -/
theorem readsField_line {indent tail : List Char} (name : List Char) {v : Json} (steps : Nat)
    (hindent : Gap indent) (hv : ReadsBack v)
    (hsteps : (renderField indent (escape name, v)).length ≤ steps) (htail : Apart tail) :
    ReadsField steps ('\n' :: indent ++ (renderField indent (escape name, v) ++ tail))
      (escape name) v tail := by
  have hfield : renderField indent (escape name, v) ++ tail
      = '"' :: (escape name ++ '"' :: ':' :: ' ' :: (render indent v ++ tail)) := by
    rw [renderField, quoted]
    simp
  have hlength : (render indent v).length ≤ steps := by
    have hwhole := congrArg List.length hfield
    simp only [List.length_append, List.length_cons] at hwhole
    omega
  refine ⟨escape name ++ '"' :: ':' :: ' ' :: (render indent v ++ tail),
    ' ' :: (render indent v ++ tail), ?_, readText_escape name [] _, ?_⟩
  · rw [skipGap_line hindent, hfield, skipGap_cons rfl]
  · have hblank : skipGap (' ' :: (render indent v ++ tail)) = skipGap (render indent v ++ tail) :=
      skipGap_append (gap_nil.cons rfl)
    rw [readValue_of_skipGap hblank]
    exact hv indent steps tail hindent hlength htail

/-- The fields of an object are read back, with the brace behind them. -/
theorem readFields_lines {indent outer : List Char} (rest : List Char)
    {fields : List (List Char × Json)} (steps : Nat) (hindent : Gap indent) (houter : Gap outer)
    (hne : fields ≠ []) (hnames : ∀ f ∈ fields, ∃ cs, f.1 = escape cs)
    (hvalues : ∀ f ∈ fields, ReadsBack f.2)
    (hsteps : (lines indent (renderFields indent fields)).length ≤ steps) :
    readFields steps
        (lines indent (renderFields indent fields) ++ ('\n' :: outer ++ '\x7d' :: rest))
      = some (fields, rest) := by
  induction fields generalizing steps with
  | nil => exact absurd rfl hne
  | cons f more ih =>
    obtain ⟨raw, v⟩ := f
    obtain ⟨name, rfl⟩ := hnames _ List.mem_cons_self
    have hv : ReadsBack v := hvalues _ List.mem_cons_self
    cases more with
    | nil =>
      have hlines : lines indent (renderFields indent [(escape name, v)])
          = '\n' :: indent ++ renderField indent (escape name, v) := rfl
      rw [hlines] at hsteps ⊢
      simp only [List.length_append, List.length_cons] at hsteps
      obtain ⟨steps, rfl⟩ : ∃ n, steps = n + 1 := ⟨steps - 1, by omega⟩
      have hfield := readsField_line name steps hindent hv (by omega)
        (apart_newline (outer ++ '\x7d' :: rest))
      rw [List.append_assoc]
      exact readFields_last hfield (skipGap_closing houter rfl rest)
    | cons g more =>
      have hlines : lines indent (renderFields indent ((escape name, v) :: g :: more))
          = '\n' :: indent ++ renderField indent (escape name, v)
            ++ ',' :: lines indent (renderFields indent (g :: more)) := rfl
      rw [hlines] at hsteps ⊢
      simp only [List.length_append, List.length_cons] at hsteps
      obtain ⟨steps, rfl⟩ : ∃ n, steps = n + 1 := ⟨steps - 1, by omega⟩
      have hfield := readsField_line name steps hindent hv (by omega) (apart_comma
        (lines indent (renderFields indent (g :: more)) ++ ('\n' :: outer ++ '\x7d' :: rest)))
      have hmore := ih steps (List.cons_ne_nil g more)
        (fun x hx => hnames x (List.mem_cons_of_mem _ hx))
        (fun x hx => hvalues x (List.mem_cons_of_mem _ hx)) (by omega)
      rw [List.append_assoc, List.append_assoc, List.cons_append]
      exact readFields_more hfield (skipGap_cons rfl _) hmore

/-- Fields that are read start with a quote, so an object that has some is not closed at once. -/
theorem readValue_object {steps : Nat} {r rest : List Char} {fields : List (List Char × Json)}
    (hread : readFields steps r = some (fields, rest)) :
    readValue (steps + 1) ('\x7b' :: r) = some (object fields, rest) := by
  have hsame : readFields steps (skipGap r) = some (fields, rest) := by
    rw [← hread]
    exact readFields_of_skipGap (List.dropWhile_idempotent ..)
  -- a brace that closes is no quote, so no field would have been read
  have hopen : ∀ tail, skipGap r ≠ '\x7d' :: tail := by
    intro tail hskip
    cases steps with
    | zero => cases hread
    | succ steps =>
      simp only [readFields, hskip] at hread
      cases hread
  rw [readValue, skipGap_cons rfl]
  simp only [hsame]
  rfl

theorem readsBack_object {fields : List (List Char × Json)}
    (hnames : ∀ f ∈ fields, ∃ cs, f.1 = escape cs) (hvalues : ∀ f ∈ fields, ReadsBack f.2) :
    ReadsBack (.object fields) := by
  intro indent steps rest hindent hsteps hrest
  cases fields with
  | nil =>
    cases steps with
    | zero => cases hsteps
    | succ steps => rfl
  | cons f more =>
    have hrender : render indent (.object (f :: more)) ++ rest
        = '\x7b' :: (lines (' ' :: ' ' :: indent) (renderFields (' ' :: ' ' :: indent) (f :: more))
          ++ ('\n' :: indent ++ '\x7d' :: rest)) := by
      rw [render]
      simp [block, renderFields]
    have hlength : (lines (' ' :: ' ' :: indent)
        (renderFields (' ' :: ' ' :: indent) (f :: more))).length + 1 ≤ steps := by
      have hwhole := congrArg List.length hrender
      simp only [List.length_append, List.length_cons] at hwhole
      omega
    obtain ⟨steps, rfl⟩ : ∃ n, steps = n + 1 := ⟨steps - 1, by omega⟩
    have hread := readFields_lines rest steps hindent.deeper hindent (List.cons_ne_nil f more)
      hnames hvalues (by omega)
    rw [hrender]
    exact readValue_object hread

/-! ### Whole texts -/

/-- Every value that can have been written is read back, wherever it stands. -/
theorem Written.readsBack {v : Json} (h : Written v) : ReadsBack v := by
  induction h with
  | null => exact readsBack_null
  | bool value => exact readsBack_bool value
  | number n => exact readsBack_number n
  | text s => exact readsBack_text s
  | array items hitems ih => exact readsBack_array hitems ih
  | object fields hnames hvalues ih => exact readsBack_object hnames ih

/-- A text that was written holds the value that it was written for. -/
theorem read?_render {v : Json} (h : Written v) : read? (render [] v) = some v := by
  have hread := h.readsBack [] (2 * (render [] v).length + 1) [] gap_nil (by omega) apart_nil
  rw [List.append_nil] at hread
  rw [read?, hread]
  rfl

end KeyBroker.Json
