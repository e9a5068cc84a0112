import KeyBroker.Proofs.Toml.Lines
import KeyBroker.Toml.Document
import Mathlib.Data.List.Nodup

/-! # The tables of a TOML document

  What the statements of a plain document add up to. Entries before the first header go into
  the document, and each header with the entries behind it is a section. A section in single
  brackets with a new name adds a table, and sections in double brackets that have one name
  add up to a series.
-/

namespace KeyBroker.Toml

/-! ### Sections -/

/-- An entry for each name with its value. -/
def entriesOf (fields : List (String × Toml)) : List (Key × Toml) :=
  fields.map fun f => (⟨f.1, []⟩, f.2)

/-- A section with a name and named values. -/
def Section.named (repeated : Bool) (name : String) (fields : List (String × Toml)) : Section :=
  ⟨repeated, ⟨name, []⟩, entriesOf fields⟩

/-- The statements of entries. -/
def entryStatements (items : List (Key × Toml)) : List Statement :=
  items.map fun e => .entry e.1 e.2

/-- The statements of a section: its header and its entries. -/
def Section.statements (s : Section) : List Statement :=
  (if s.repeated then .series s.key else .table s.key) :: entryStatements s.items

theorem sections_entries (items : List (Key × Toml)) (l : List Statement) :
    sections (entryStatements items ++ l) = (items ++ (sections l).1, (sections l).2) := by
  induction items with
  | nil => rfl
  | cons e items ih =>
    show sections (.entry e.1 e.2 :: (entryStatements items ++ l)) = _
    rw [sections, ih]
    rfl

/-- Statements are split into the entries and sections that they were put together from. -/
theorem sections_statements (items : List (Key × Toml)) (ss : List Section) :
    sections (entryStatements items ++ ss.flatMap Section.statements) = (items, ss) := by
  have hsections : sections (ss.flatMap Section.statements) = ([], ss) := by
    induction ss with
    | nil => rfl
    | cons s ss ih =>
      obtain ⟨repeated, key, items⟩ := s
      rw [List.flatMap_cons, Section.statements, List.cons_append]
      cases repeated with
      | false =>
        show sections (.table key :: _) = _
        rw [sections, sections_entries, ih]
        simp
      | true =>
        show sections (.series key :: _) = _
        rw [sections, sections_entries, ih]
        simp
  rw [sections_entries, hsections, List.append_nil]

/-! ### Tables -/

variable {entries : List (String × Toml)} {name : String}

/-- A name is new just if no entry has it. -/
theorem lookup_eq_none_iff : entries.lookup name = none ↔ name ∉ entries.map Prod.fst := by
  rw [List.lookup_eq_none_iff, List.mem_map]
  constructor
  · rintro h ⟨e, he, rfl⟩
    have hne := h e he
    simp at hne
  · intro h e he
    have hne : name ≠ e.1 := fun heq => h ⟨e, he, heq.symm⟩
    simpa using hne

/-- The value of the last entry is replaced if its name was new. -/
theorem replace_append {v w : Toml} (hnew : entries.lookup name = none) :
    replace (entries ++ [(name, v)]) name w = entries ++ [(name, w)] := by
  have hkept : replace entries name w = entries := by
    have hsame : ∀ e ∈ entries, (if e.1 = name then (name, w) else e) = e := by
      intro e he
      refine if_neg fun heq => lookup_eq_none_iff.mp hnew ?_
      exact heq ▸ List.mem_map_of_mem he
    rw [replace, List.map_congr_left hsame, List.map_id']
  rw [replace] at hkept ⊢
  rw [List.map_append, hkept, List.map_singleton, if_pos rfl]

/-- The first of some names that are all different is new. -/
theorem lookup_of_nodup {names : List String}
    (h : (entries.map Prod.fst ++ name :: names).Nodup) : entries.lookup name = none := by
  rw [lookup_eq_none_iff]
  intro hmem
  exact (List.nodup_append.mp h).2.2 name hmem name List.mem_cons_self rfl

/-- Values are put under names that are all different. -/
theorem fill_entriesOf {fields : List (String × Toml)}
    (h : (entries.map Prod.fst ++ fields.map Prod.fst).Nodup) :
    fill entries (entriesOf fields) = some (entries ++ fields) := by
  induction fields generalizing entries with
  | nil => simp [entriesOf, fill]
  | cons f fields ih =>
    have hput : put f.2 f.1 [] entries = some (entries ++ [f]) := by
      rw [put, lookup_of_nodup h]
    show fill entries ((⟨f.1, []⟩, f.2) :: entriesOf fields) = _
    rw [fill, hput]
    simp only
    rw [ih (by simpa using h), List.append_assoc, List.singleton_append]

theorem addSections_append (entries : List (String × Toml)) (ss ts : List Section) :
    addSections entries (ss ++ ts) = (addSections entries ss).bind fun e => addSections e ts := by
  induction ss generalizing entries with
  | nil => rfl
  | cons s ss ih =>
    rw [List.cons_append, addSections, addSections]
    cases s.addTo entries with
    | none => rfl
    | some entries => exact ih entries

/-- The tables that headers of their own give. -/
def tablesOf (tables : List (String × List (String × Toml))) : List (String × Toml) :=
  tables.map fun t => (t.1, .table .header t.2)

/-- Sections with new names in single brackets add their tables. -/
theorem addSections_tables {tables : List (String × List (String × Toml))}
    (hnames : (entries.map Prod.fst ++ tables.map Prod.fst).Nodup)
    (hfields : ∀ t ∈ tables, (t.2.map Prod.fst).Nodup) :
    addSections entries (tables.map fun t => Section.named false t.1 t.2)
      = some (entries ++ tablesOf tables) := by
  induction tables generalizing entries with
  | nil => simp [addSections, tablesOf]
  | cons t tables ih =>
    have hfill : fill [] (entriesOf t.2) = some t.2 :=
      fill_entriesOf (hfields t List.mem_cons_self)
    have hadd : (Section.named false t.1 t.2).addTo entries
        = some (entries ++ [(t.1, .table .header t.2)]) := by
      show addTable (entriesOf t.2) t.1 entries = _
      rw [addTable, lookup_of_nodup hnames, hfill]
      rfl
    rw [List.map_cons, addSections, hadd]
    simp only
    -- the first table is now among the entries, and all names are still different
    rw [ih (by simpa using hnames) fun u hu => hfields u (List.mem_cons_of_mem t hu),
      List.append_assoc]
    rfl

/-- Sections of one name in double brackets are added to their series, -/
theorem addSections_series {tables : List Toml} {series : List (List (String × Toml))}
    (hnew : entries.lookup name = none) (hseries : ∀ fields ∈ series, (fields.map Prod.fst).Nodup) :
    addSections (entries ++ [(name, .series tables)]) (series.map (Section.named true name))
      = some (entries ++ [(name, .series (tables ++ series.map (.table .header)))]) := by
  induction series generalizing tables with
  | nil => simp [addSections]
  | cons fields series ih =>
    have hfill : fill [] (entriesOf fields) = some fields :=
      fill_entriesOf (hseries fields List.mem_cons_self)
    have hadd : (Section.named true name fields).addTo (entries ++ [(name, .series tables)])
        = some (entries ++ [(name, .series (tables ++ [.table .header fields]))]) := by
      have hlast : (entries ++ [(name, Toml.series tables)]).lookup name = some (.series tables) := by
        rw [List.lookup_append, hnew]
        simp
      show addToSeries (entriesOf fields) name _ = _
      rw [addToSeries, hlast, hfill]
      simp only [Option.map_some, replace_append hnew]
    rw [List.map_cons, addSections, hadd]
    simp only
    rw [ih fun f hf => hseries f (List.mem_cons_of_mem fields hf)]
    simp

/-- of which the first one starts it. -/
theorem addSections_first {fields : List (String × Toml)} {series : List (List (String × Toml))}
    (hnew : entries.lookup name = none)
    (hseries : ∀ f ∈ fields :: series, (f.map Prod.fst).Nodup) :
    addSections entries ((fields :: series).map (Section.named true name))
      = some (entries ++ [(name, .series ((fields :: series).map (.table .header)))]) := by
  have hfill : fill [] (entriesOf fields) = some fields :=
    fill_entriesOf (hseries fields List.mem_cons_self)
  have hadd : (Section.named true name fields).addTo entries
      = some (entries ++ [(name, .series [.table .header fields])]) := by
    show addToSeries (entriesOf fields) name entries = _
    rw [addToSeries, hnew, hfill]
    rfl
  rw [List.map_cons, addSections, hadd]
  simp only
  rw [addSections_series hnew fun f hf => hseries f (List.mem_cons_of_mem fields hf)]
  rfl

end KeyBroker.Toml
