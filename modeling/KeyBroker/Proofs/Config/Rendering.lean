import KeyBroker.Config.File
import KeyBroker.Proofs.Toml.Tables

/-! # The lines of a written configuration

  A configuration is written as blocks, each a header with a line for each of its settings,
  and a blank line stands between each two. Every setting is read back as its value, so what
  is written are the lines of a document whose sections are the blocks.
-/

namespace KeyBroker.Config

open Toml

/-! ### Settings -/

/-- A number that is an integer of the format; the other settings have a form anyway. -/
def Setting.Fits : Setting → Prop
  | number n => n < 0x8000000000000000
  | text _ | names _ => True

/-- The written form of a setting starts with no blank. -/
theorem Setting.render_head (s : Setting) :
    ∃ c more, s.render = c :: more ∧ isGap c = false := by
  cases s with
  | text s =>
    obtain ⟨q, more, heq, hq⟩ := writeText_head s.toList
    exact ⟨q, more, heq, (solid_of_quote hq).gap⟩
  | number n =>
    obtain ⟨d, more, h, hdigit⟩ := Text.toDigits_cons n
    exact ⟨d, more, h, (of_isBare (isBare_of_isDigit hdigit)).1⟩
  | names l =>
    rcases l with - | ⟨name, - | ⟨next, l⟩⟩
    · exact ⟨_, _, rfl, by decide⟩
    · exact ⟨_, _, rfl, by decide⟩
    · exact ⟨_, _, rfl, by decide⟩

/-- Names have a line each only if they are two or more. -/
theorem Setting.render_names (name next : String) (l : List String) :
    (names (name :: next :: l)).render
      = '[' :: '\n' :: ((name :: next :: l).flatMap itemLine ++ [']']) := rfl

theorem length_itemLines (l : List String) : l.length ≤ (l.flatMap itemLine).length := by
  induction l with
  | nil => exact Nat.le_refl 0
  | cons name l ih =>
    rw [List.flatMap_cons, List.length_append, itemLine]
    simp only [List.length_append, List.length_cons]
    omega

/-- A setting is read back as its value in every document that has room for it. -/
theorem Setting.readValue {s : Setting} (h : s.Fits) {size : Nat} (hsize : s.render.length ≤ size)
    (rest : List Char) :
    readValue size depthLimit (s.render ++ '\n' :: rest) = some (s.value, '\n' :: rest) := by
  have hended : Ended ('\n' :: rest) := ⟨_, _, rfl, Or.inr (Or.inr rfl)⟩
  cases s with
  | text s => exact readValue_text size 79 s hended
  | number n => exact readValue_number size 79 h hended
  | names l =>
    -- an empty array, a single name on the same line, or a line for each name
    rcases l with - | ⟨name, - | ⟨next, l⟩⟩
    · obtain ⟨size, rfl⟩ : ∃ n, size = n + 1 := ⟨size - 1, by simp [render] at hsize; omega⟩
      have hskip := skipLines_solid solid_bracket size ('\n' :: rest)
      refine readValue_array ?_
      show readItems _ (size + 1) (']' :: '\n' :: rest) = _
      rw [readItems, hskip]
      rfl
    · obtain ⟨size, rfl⟩ : ∃ n, size = n + 1 := ⟨size - 1, by simp [render] at hsize; omega⟩
      obtain ⟨q, more, heq, hq⟩ := writeText_head name.toList
      have hbracket : q ≠ ']' := by
        rcases hq with rfl | rfl <;> decide
      have hclosed : Ended (']' :: '\n' :: rest) := ⟨_, _, rfl, Or.inr (Or.inl rfl)⟩
      have hread := readValue_text (size + 1) 78 name hclosed
      have hwritten : (names [name]).render ++ '\n' :: rest
          = '[' :: (writeText name.toList ++ ']' :: '\n' :: rest) := by
        simp [render]
      rw [heq, List.cons_append] at hread hwritten
      rw [hwritten]
      refine readValue_array ?_
      exact readItems_last (skipLines_solid (solid_of_quote hq) size _) hbracket hread
        (skipLines_solid solid_bracket size _)
    · have hlength := length_itemLines (name :: next :: l)
      have hwritten : (names (name :: next :: l)).render ++ '\n' :: rest
          = '[' :: '\n' :: ((name :: next :: l).flatMap itemLine ++ ']' :: '\n' :: rest) := by
        rw [render_names]
        simp only [List.cons_append, List.append_assoc, List.nil_append]
      rw [render_names] at hsize
      rw [hwritten]
      refine readValue_array (readItems_lines size 78 ?_ ('\n' :: rest))
      simp only [List.length_cons, List.length_append] at hsize hlength ⊢
      omega

/-- A line with a setting is an entry. -/
theorem lines_setting {name : String} {s : Setting} (hname : Bare name) (hfits : s.Fits)
    {cs : List Char} {l : List Statement} (hrest : Lines cs l) :
    Lines (settingLine (name, s) ++ cs) (.entry ⟨name, []⟩ s.value :: l) := by
  obtain ⟨d, r, hd, hbare⟩ := hname.head ([' ', '=', ' '] ++ s.render)
  obtain ⟨c, more, hc, hgap⟩ := s.render_head
  have hline : settingLine (name, s) ++ cs = d :: r ++ '\n' :: cs := by
    rw [← hd, settingLine]
    simp
  rw [hline]
  refine .statement d r _ cs l (solid_of_isBare hbare) (fun size rest hsize => ?_) hrest
  rw [← hd] at hsize ⊢
  have hroom : s.render.length ≤ size := by
    simp only [List.length_append] at hsize
    omega
  have hvalue := Setting.readValue hfits hroom rest
  rw [hc, List.cons_append] at hvalue
  have hentry := readStatement_entry hname hgap hvalue
  simpa [hc] using hentry

/-! ### Blocks -/

/-- The values of settings by their names. -/
def fieldsOf (settings : List (String × Setting)) : List (String × Toml) :=
  settings.map fun e => (e.1, e.2.value)

/-- Settings that can be written: their names need no quotes, and their numbers are integers of
    the format. -/
inductive Writable : List (String × Setting) → Prop where
  | nil : Writable []
  | cons {name : String} {s : Setting} {settings : List (String × Setting)} (hname : Bare name)
      (hfits : s.Fits) (hrest : Writable settings) : Writable ((name, s) :: settings)

/-- The block that is written for a section. -/
inductive Writes : Block → Section → Prop where
  | table (name : String) (settings : List (String × Setting)) (hname : Bare name)
      (hsettings : Writable settings) :
    Writes ⟨'[' :: (name.toList ++ [']']), settings⟩ (.named false name (fieldsOf settings))
  | series (name : String) (settings : List (String × Setting)) (hname : Bare name)
      (hsettings : Writable settings) :
    Writes ⟨'[' :: '[' :: (name.toList ++ [']', ']']), settings⟩
      (.named true name (fieldsOf settings))

/-- The lines of settings are entries. -/
theorem lines_settings {settings : List (String × Setting)} (h : Writable settings)
    {cs : List Char} {l : List Statement} (hrest : Lines cs l) :
    Lines (settings.flatMap settingLine ++ cs)
      (entryStatements (entriesOf (fieldsOf settings)) ++ l) := by
  induction h with
  | nil => exact hrest
  | @cons name s settings hname hfits _ ih =>
    rw [List.flatMap_cons, List.append_assoc]
    exact lines_setting hname hfits ih

theorem solid_open : Solid '[' := by decide

/-- The lines of a block are the statements of its section. -/
theorem Writes.lines {b : Block} {s : Section} (h : Writes b s) {cs : List Char}
    {l : List Statement} (hrest : Lines cs l) : Lines (b.render ++ cs) (s.statements ++ l) := by
  cases h with
  | table name settings hname hsettings =>
    have hline := Lines.statement '[' (name.toList ++ [']']) (.table ⟨name, []⟩) _ _ solid_open
      (fun size rest _ => by simpa using readStatement_table size hname ('\n' :: rest))
      (lines_settings hsettings hrest)
    show Lines _ (.table ⟨name, []⟩ :: (entryStatements (entriesOf (fieldsOf settings)) ++ l))
    simpa [Block.render] using hline
  | series name settings hname hsettings =>
    have hline := Lines.statement '[' ('[' :: (name.toList ++ [']', ']'])) (.series ⟨name, []⟩) _ _
      solid_open
      (fun size rest _ => by simpa using readStatement_series size hname ('\n' :: rest))
      (lines_settings hsettings hrest)
    show Lines _ (.series ⟨name, []⟩ :: (entryStatements (entriesOf (fieldsOf settings)) ++ l))
    simpa [Block.render] using hline

/-- Blocks with a blank line between each two are the statements of their sections. -/
theorem lines_renderBlocks {bs : List Block} {ss : List Section} (h : List.Forall₂ Writes bs ss) :
    Lines (renderBlocks bs) (ss.flatMap Section.statements) := by
  induction h with
  | nil => exact .nil
  | @cons b s bs ss hfirst hrest ih =>
    cases hrest with
    | nil =>
      -- no blank line stands behind the last block
      have hlines := hfirst.lines .nil
      simpa [renderBlocks] using hlines
    | cons _ _ => exact hfirst.lines (.blank _ _ ih)

/-! ### Documents -/

variable (c : Config) (socketPath storePath : String)

/-- The settings of the server. -/
def serverSettings : List (String × Setting) :=
  [("socket_path", .text socketPath), ("socket_mode", .number c.server.socketMode.toNat),
    ("max_frame_bytes", .number c.server.frameLimit.toNat),
    ("probe_timeout_ms", .number c.server.probeTimeout.toNat)]

/-- The tables that stand before the grants. -/
def plainTables : List (String × List (String × Toml)) :=
  [("server", fieldsOf (c.serverSettings socketPath)),
    ("keystore", fieldsOf [("path", .text storePath)]),
    ("algorithms", fieldsOf [("disabled", .names c.disabled)])]

/-- The fields of a grant. -/
def grantFields (g : Grant) : List (String × Toml) := fieldsOf (grantBlock g).settings

/-- The sections of a configuration. -/
def sectionsOf : List Section :=
  (c.plainTables socketPath storePath).map (fun t => Section.named false t.1 t.2)
    ++ (c.grants.map grantFields).map (Section.named true "grants")

/-- The entries before the first section: that there are no grants, if so. -/
def prefaceFields : List (String × Toml) :=
  if c.grants.isEmpty then [("grants", .array [])] else []

variable {c}

theorem representable_iff :
    c.representable = true ↔ c.server.frameLimit.toNat < 0x8000000000000000
      ∧ c.server.probeTimeout.toNat < 0x8000000000000000 := by
  simp only [representable, Bool.and_eq_true, decide_eq_true_eq, UInt64.lt_iff_toNat_lt]
  rfl

theorem writable_serverSettings (h : c.representable = true) :
    Writable (c.serverSettings socketPath) := by
  obtain ⟨hlimit, htimeout⟩ := representable_iff.mp h
  have hmode : c.server.socketMode.toNat < 0x8000000000000000 :=
    Nat.lt_trans c.server.socketMode.toNat_lt (by decide)
  exact .cons (by decide) trivial (.cons (by decide) hmode
    (.cons (by decide) hlimit (.cons (by decide) htimeout .nil)))

theorem writable_grantBlock (g : Grant) : Writable (grantBlock g).settings :=
  .cons (by decide) trivial (.cons (by decide) trivial (.cons (by decide) trivial .nil))

/-- Every block is written for the section that it is meant for. -/
theorem writes_blocks (h : c.representable = true) :
    List.Forall₂ Writes (c.blocks socketPath storePath) (c.sectionsOf socketPath storePath) := by
  have hgrants : List.Forall₂ Writes (c.grants.map grantBlock)
      ((c.grants.map grantFields).map (Section.named true "grants")) := by
    rw [List.map_map, List.forall₂_map_left_iff, List.forall₂_map_right_iff, List.forall₂_same]
    exact fun g _ => .series "grants" _ (by decide) (writable_grantBlock g)
  refine .cons ?_ (.cons ?_ (.cons ?_ hgrants))
  · exact .table "server" _ (by decide) (writable_serverSettings socketPath h)
  · exact .table "keystore" _ (by decide) (.cons (by decide) trivial .nil)
  · exact .table "algorithms" _ (by decide) (.cons (by decide) trivial .nil)

/-- What is written for a configuration are the lines of its sections. -/
theorem lines_document (h : c.representable = true) :
    Lines (c.preface ++ renderBlocks (c.blocks socketPath storePath))
      (entryStatements (entriesOf c.prefaceFields)
        ++ (c.sectionsOf socketPath storePath).flatMap Section.statements) := by
  refine Lines.append ?_ (lines_renderBlocks (writes_blocks socketPath storePath h))
  unfold preface prefaceFields
  split
  · have hname : Bare "grants" := by decide
    exact lines_setting hname (s := .names []) trivial (.blank _ _ .nil)
  · exact .nil

end KeyBroker.Config
