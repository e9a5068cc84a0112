import KeyBroker.Toml.Statement

/-! # TOML documents

What the statements of a document add up to: the entries before the first header belong to the
document itself, and those behind a header to its table.
-/

namespace KeyBroker.Toml

/-- A header with the entries behind it. -/
structure Section where
  /-- Whether the header stands in double brackets. -/
  repeated : Bool
  key : Key
  items : List (Key × Toml)

/-- Splits statements into the entries before the first header and the sections from there on. -/
def sections : List Statement → List (Key × Toml) × List Section
  | [] => ([], [])
  | s :: rest =>
    let (items, later) := sections rest
    match s with
    | .entry key v => ((key, v) :: items, later)
    | .table key => ([], ⟨false, key, items⟩ :: later)
    | .series key => ([], ⟨true, key, items⟩ :: later)

/-- Adds a section to the entries of a document. -/
def Section.addTo (entries : List (String × Toml)) (s : Section) : Option (List (String × Toml)) :=
  within (if s.repeated then addToSeries s.items else addTable s.items) s.key.first s.key.rest
    entries

/-- Adds sections in order. -/
def addSections (entries : List (String × Toml)) : List Section → Option (List (String × Toml))
  | [] => some entries
  | s :: rest =>
    match s.addTo entries with
    | some entries => addSections entries rest
    | none => none

/-- The table that statements add up to. -/
def ofStatements (l : List Statement) : Option Toml :=
  let (items, later) := sections l
  match fill [] items with
  | some entries => (addSections entries later).map (.table .header)
  | none => none

/-- Reads a document. -/
def read? (cs : List Char) : Option Toml := (statements? cs).bind ofStatements

end KeyBroker.Toml
