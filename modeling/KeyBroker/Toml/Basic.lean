/-! # TOML values

A TOML document is a table of named values. A table remembers how it came about, for that decides
what may still be added to it.
-/

namespace KeyBroker

/-- How a table of a document came about. -/
inductive TableOrigin where
  /-- By a header of its own. -/
  | header
  /-- As a step on the way of a header. -/
  | implied
  /-- As a step on the way of a dotted key. -/
  | dotted
  /-- In braces. -/
  | inline
  deriving DecidableEq, Repr

/-- A value of a document. Numbers with a fraction or an exponent, and dates and times, are known
only to be there. -/
inductive Toml where
  | text (s : String)
  | integer (n : Int)
  | decimal
  | boolean (b : Bool)
  | moment
  | array (items : List Toml)
  | table (origin : TableOrigin) (entries : List (String × Toml))
  /-- Tables that headers in double brackets added one by one. -/
  | series (tables : List Toml)
  deriving Repr

namespace Toml

/-- A dotted key: one name or more. -/
structure Key where
  first : String
  rest : List String := []
  deriving DecidableEq, Repr

/-- The text of a value. -/
def text? : Toml → Option String
  | text s => some s
  | _ => none

/-- A value that is a number from zero to `limit`. -/
def natural? (limit : Nat) : Toml → Option Nat
  | integer n => if 0 ≤ n ∧ n ≤ limit then some n.toNat else none
  | _ => none

/-- The items of an array, or the tables of a series. -/
def items? : Toml → Option (List Toml)
  | array items => some items
  | series tables => some tables
  | _ => none

/-- The values of the given fields, in order, each absent if there is none. The fields of a table
go by their names and those of an array by their places; a date has no fields. -/
def fields? (names : List String) : Toml → Option (List (Option Toml))
  | table _ entries => some (names.map fun name => entries.lookup name)
  | array items => some ((List.range names.length).map fun i => items[i]?)
  | series tables => some ((List.range names.length).map fun i => tables[i]?)
  | moment => some (names.map fun _ => none)
  | _ => none

end Toml

end KeyBroker
