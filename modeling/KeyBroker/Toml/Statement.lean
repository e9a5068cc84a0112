import KeyBroker.Toml.Number
import KeyBroker.Toml.Table
import KeyBroker.Toml.Text

/-! # The lines of a TOML document

A document is a sequence of statements: headers of tables, and keys with their values. Here each
statement is read by itself; what they add up to is another matter. Keys have at most 79 names, and
brackets and braces go at most 79 deep.
-/

namespace KeyBroker.Toml

/-- One statement of a document. -/
inductive Statement where
  /-- A header in single brackets. -/
  | table (key : Key)
  /-- A header in double brackets. -/
  | series (key : Key)
  | entry (key : Key) (value : Toml)
  deriving Repr

/-- The number of names that a key stays below, and of levels that values stay below. -/
def depthLimit : Nat := 80

/-! ### Blanks and comments -/

/-- A text without the blanks at its start. -/
def skipGap (cs : List Char) : List Char := cs.dropWhile isGap

/-- A text without the comment at its start, if there is one. -/
def skipComment : List Char → List Char
  | '#' :: r => r.dropWhile isPlain
  | cs => cs

/-- Takes the rest of a line without a statement off the front: blanks and a comment up to the line
break or the end of the text. -/
def endLine? (cs : List Char) : Option (List Char) :=
  match skipComment (skipGap cs) with
  | [] => some []
  | cs => skipBreak? cs

/-- A text without the blanks, comments and line breaks at its start; `steps` bounds their
number. -/
def skipLines : (steps : Nat) → List Char → List Char
  | 0, cs => cs
  | steps + 1, cs =>
    match skipBreak? (skipComment (skipGap cs)) with
    | some r => skipLines steps r
    | none => skipGap cs

/-! ### Keys -/

/-- The characters of names that need no quotes. -/
def isBare (c : Char) : Bool := c.isAlphanum || c = '-' || c = '_'

/-- Takes one name of a key off the front, with the blanks around it. -/
def readName (cs : List Char) : Option (String × List Char) :=
  let cs := skipGap cs
  match readShortText cs with
  | some (name, r) => some (String.ofList name, skipGap r)
  | none =>
    let name := cs.takeWhile isBare
    if name.isEmpty then none else some (String.ofList name, skipGap (cs.dropWhile isBare))

/-- Takes the names behind the first off the front; `room` bounds their number. -/
def readNames : (room : Nat) → List Char → Option (List String × List Char)
  | 0, _ => none
  | room + 1, cs =>
    match cs with
    | '.' :: r =>
      match readName r with
      | some (name, r) => (readNames room r).map fun (names, r) => (name :: names, r)
      | none => none
    | cs => some ([], cs)

/-- Takes a key off the front, with the blanks around it. -/
def readKey (cs : List Char) : Option (Key × List Char) :=
  match readName cs with
  | some (first, r) => (readNames (depthLimit - 1) r).map fun (rest, r) => (⟨first, rest⟩, r)
  | none => none

/-! ### Values -/

/-- Takes the items of an array off the front, with the comma behind the last one if there is one;
`read` takes an item, and `steps` bounds the number of items and lines. -/
def readItems (read : List Char → Option (Toml × List Char)) :
    (steps : Nat) → List Char → Option (List Toml × List Char)
  | 0, _ => none
  | steps + 1, cs =>
    match skipLines steps cs with
    | ']' :: r => some ([], r)
    | cs =>
      match read cs with
      | none => none
      | some (item, r) =>
        match skipLines steps r with
        | ',' :: r => (readItems read steps r).map fun (items, r) => (item :: items, r)
        | ']' :: r => some ([item], r)
        | _ => none

/-- Takes the key of an entry, its equals sign and the blanks behind it off the front. -/
def readLeft (cs : List Char) : Option (Key × List Char) :=
  match readKey cs with
  | some (key, '=' :: r) => some (key, skipGap r)
  | _ => none

/-- Takes the entries of a table in braces off the front, each with `read`; at least one. -/
def readEntries (read : List Char → Option (Toml × List Char)) :
    (steps : Nat) → List Char → Option (List (Key × Toml) × List Char)
  | 0, _ => none
  | steps + 1, cs =>
    match readLeft cs with
    | none => none
    | some (key, r) =>
      match read r with
      | none => none
      | some (v, r) =>
        match skipGap r with
        | ',' :: r => (readEntries read steps r).map fun (entries, r) => ((key, v) :: entries, r)
        | '\x7d' :: r => some ([(key, v)], r)
        | _ => none

/-- Takes a number, a date or a time off the front. -/
def readNumeric (cs : List Char) : Option (Toml × List Char) :=
  match readMoment cs with
  | some r => some (.moment, r)
  | none =>
    match readDecimal cs with
    | some r => some (.decimal, r)
    | none => (readInteger cs).map fun (n, r) => (.integer n, r)

/-- Takes a value off the front; `room` bounds the depth of its brackets and braces, and `steps` the
number of parts at each level. -/
def readValue (steps : Nat) : (room : Nat) → List Char → Option (Toml × List Char)
  | 0, _ => none
  | room + 1, cs =>
    match cs with
    | '[' :: r => if room = 0 then none else
      (readItems (readValue steps room) steps r).map fun (items, r) => (.array items, r)
    | '\x7b' :: r => if room = 0 then none else
      match skipGap r with
      | '\x7d' :: r => some (.table .inline [], r)
      | r =>
        match readEntries (readValue steps room) steps r with
        | some (entries, r) => (fill [] entries).map fun entries => (.table .inline entries, r)
        | none => none
    | 't' :: r => (Text.skipWord? "rue".toList r).map fun r => (.boolean true, r)
    | 'f' :: r => (Text.skipWord? "alse".toList r).map fun r => (.boolean false, r)
    | cs =>
      match readText cs with
      | some (s, r) => some (.text (String.ofList s), r)
      | none => readNumeric cs

/-! ### Statements -/

/-- Takes a statement off the front, up to the end of its line. -/
def readStatement (steps : Nat) (cs : List Char) : Option (Statement × List Char) :=
  match cs with
  | '[' :: '[' :: r =>
    match readKey r with
    | some (key, ']' :: ']' :: r) => some (.series key, r)
    | _ => none
  | '[' :: r =>
    match readKey r with
    | some (key, ']' :: r) => some (.table key, r)
    | _ => none
  | cs =>
    match readLeft cs with
    | some (key, r) => (readValue steps depthLimit r).map fun (v, r) => (.entry key v, r)
    | none => none

/-- Reads the statements of a document; `steps` bounds the number of its lines. -/
def readStatements (size : Nat) : (steps : Nat) → List Char → Option (List Statement)
  | _, [] => some []
  | 0, _ => none
  | steps + 1, cs =>
    match endLine? cs with
    | some r => readStatements size steps r
    | none =>
      match readStatement size (skipGap cs) with
      | none => none
      | some (s, r) =>
        match endLine? r with
        | some r => (readStatements size steps r).map (s :: ·)
        | none => none

/-- A text without the mark of its encoding. -/
def dropMark : List Char → List Char
  | '\ufeff' :: r => r
  | cs => cs

/-- The statements of a document. -/
def statements? (cs : List Char) : Option (List Statement) :=
  let cs := dropMark cs
  readStatements cs.length cs.length cs

end KeyBroker.Toml
