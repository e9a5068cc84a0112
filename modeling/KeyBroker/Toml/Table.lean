import KeyBroker.Toml.Basic

/-! # Tables of a TOML document

Values are put into tables under keys, and each name is taken once. A table that was complete when
it was written, in braces or under its own header, takes no dotted keys from outside.
-/

namespace KeyBroker.Toml

/-- The entries of a table with a new value under one of its names. -/
def replace (entries : List (String × Toml)) (name : String) (v : Toml) : List (String × Toml) :=
  entries.map fun e => if e.1 = name then (name, v) else e

/-- Puts a value under a key that goes through the given names. The tables on the way are those that
dotted keys made; through others the key may pass only to make one behind them. -/
def put (v : Toml) :
    (name : String) → (names : List String) → List (String × Toml) → Option (List (String × Toml))
  | name, [], entries =>
    match entries.lookup name with
    | none => some (entries ++ [(name, v)])
    | some _ => none
  | name, next :: names, entries =>
    match entries.lookup name with
    | none => (put v next names []).map fun inner => entries ++ [(name, .table .dotted inner)]
    | some (.table .dotted inner) =>
      (put v next names inner).map fun inner => replace entries name (.table .dotted inner)
    | some (.table .implied inner) =>
      if names.isEmpty then none
      else (put v next names inner).map fun inner => replace entries name (.table .implied inner)
    | some (.series tables) =>
      match names.isEmpty, tables.reverse with
      | false, .table origin inner :: older =>
        (put v next names inner).map fun inner =>
          replace entries name (.series (.table origin inner :: older).reverse)
      | _, _ => none
    | some _ => none

/-- Puts values under their keys, in order. -/
def fill (entries : List (String × Toml)) : List (Key × Toml) → Option (List (String × Toml))
  | [] => some entries
  | (key, v) :: rest =>
    match put v key.first key.rest entries with
    | some entries => fill entries rest
    | none => none

/-! ### Headers -/

/-- Applies a change to the table in which the last name of a key stands. The tables on the way are
made where there are none; of a series it is the last one. -/
def within (change : String → List (String × Toml) → Option (List (String × Toml))) :
    (name : String) → (names : List String) → List (String × Toml) → Option (List (String × Toml))
  | name, [], entries => change name entries
  | name, next :: names, entries =>
    match entries.lookup name with
    | none => (within change next names []).map fun inner =>
      entries ++ [(name, .table .implied inner)]
    | some (.table .inline _) => none
    | some (.table origin inner) =>
      (within change next names inner).map fun inner => replace entries name (.table origin inner)
    | some (.series tables) =>
      match tables.reverse with
      | .table origin inner :: older =>
        (within change next names inner).map fun inner =>
          replace entries name (.series (.table origin inner :: older).reverse)
      | _ => none
    | some _ => none

/-- Adds a table under a header of its own. Only a table on the way of other headers may be there
already; it keeps its entries. -/
def addTable (items : List (Key × Toml)) (name : String) (entries : List (String × Toml)) :
    Option (List (String × Toml)) :=
  match entries.lookup name with
  | none => (fill [] items).map fun inner => entries ++ [(name, .table .header inner)]
  | some (.table .implied inner) =>
    (fill inner items).map fun inner => replace entries name (.table .header inner)
  | some _ => none

/-- Adds a table to a series, or starts a series with it. -/
def addToSeries (items : List (Key × Toml)) (name : String) (entries : List (String × Toml)) :
    Option (List (String × Toml)) :=
  match entries.lookup name with
  | none => (fill [] items).map fun inner => entries ++ [(name, .series [.table .header inner])]
  | some (.series tables) =>
    (fill [] items).map fun inner =>
      replace entries name (.series (tables ++ [.table .header inner]))
  | some _ => none

end KeyBroker.Toml
