import KeyBroker.Text.Quoted
import KeyBroker.Text.Scan

/-! # JSON values

A JSON value keeps its texts and numbers as they are written. A text that is asked for is read with
its escapes resolved; one that nobody asks for need not make sense.
-/

namespace KeyBroker

/-- A JSON value. Numbers are numerals, texts and names are what stands between the quotes. -/
inductive Json where
  | null
  | bool (value : Bool)
  | number (numeral : List Char)
  | text (raw : List Char)
  | array (items : List Json)
  | object (fields : List (List Char × Json))

namespace Json

/-! ### Texts -/

/-- The value of four hexadecimal digits. -/
def hexUnit? (a b c d : Char) : Option Nat := do
  let a ← Text.hexValue? a
  let b ← Text.hexValue? b
  let c ← Text.hexValue? c
  let d ← Text.hexValue? d
  some (((a * 16 + b) * 16 + c) * 16 + d)

/-- A hexadecimal digit of a value below 16. -/
def hexDigit (n : Nat) : Char := if n < 10 then Char.ofNat (48 + n) else Char.ofNat (87 + n)

/-- How one character is written in a text. -/
def escapeChar (c : Char) : List Char :=
  if c = '"' then ['\\', '"']
  else if c = '\\' then ['\\', '\\']
  else if c = '\x08' then ['\\', 'b']
  else if c = '\x0c' then ['\\', 'f']
  else if c = '\n' then ['\\', 'n']
  else if c = '\r' then ['\\', 'r']
  else if c = '\t' then ['\\', 't']
  else if c.toNat < 0x20 then
    ['\\', 'u', '0', '0', hexDigit (c.toNat / 16), hexDigit (c.toNat % 16)]
  else [c]

/-- A text as it is written. -/
def escape (cs : List Char) : List Char := cs.flatMap escapeChar

/-- The character that a short escape stands for. -/
def shortEscape? (c : Char) : Option Char :=
  match c with
  | '"' => some '"'
  | '\\' => some '\\'
  | '/' => some '/'
  | 'b' => some '\x08'
  | 'f' => some '\x0c'
  | 'n' => some '\n'
  | 'r' => some '\r'
  | 't' => some '\t'
  | _ => none

/-- The character of two units of sixteen bits: a high and a low surrogate. -/
def surrogates? (high low : Nat) : Option Char :=
  if 0xdc00 ≤ low ∧ low < 0xe000 then
    some (Char.ofNat (0x10000 + (high - 0xd800) * 0x400 + (low - 0xdc00)))
  else none

/-- Resolves the escapes of a text; `done` is what was read, latest first. Surrogates must come in
pairs. -/
def unescapeFrom (done : List Char) : List Char → Option (List Char)
  | [] => some done.reverse
  | '\\' :: 'u' :: a :: b :: c :: d :: r =>
    match hexUnit? a b c d with
    | none => none
    | some unit =>
      if unit < 0xd800 ∨ 0xe000 ≤ unit then unescapeFrom (Char.ofNat unit :: done) r
      else if 0xdc00 ≤ unit then none
      else
        match r with
        | '\\' :: 'u' :: e :: f :: g :: h :: r =>
          match (hexUnit? e f g h).bind (surrogates? unit) with
          | some c => unescapeFrom (c :: done) r
          | none => none
        | _ => none
  | '\\' :: c :: r =>
    match shortEscape? c with
    | some c => unescapeFrom (c :: done) r
    | none => none
  | c :: r => unescapeFrom (c :: done) r

/-- A text with its escapes resolved. -/
def unescape? (raw : List Char) : Option String := (unescapeFrom [] raw).map String.ofList

/-- The value of a text. -/
def ofString (s : String) : Json := text (escape s.toList)

/-! ### Writing -/

/-- Items with commas between them, each on a line of its own. -/
def lines (indent : List Char) : List (List Char) → List Char
  | [] => []
  | [item] => '\n' :: indent ++ item
  | item :: rest => '\n' :: indent ++ item ++ ',' :: lines indent rest

/-- Items between brackets; no items stay on the line. -/
def block (opening closing : Char) (indent : List Char) (items : List (List Char)) : List Char :=
  match items with
  | [] => [opening, closing]
  | items =>
    opening :: lines (' ' :: ' ' :: indent) items ++ '\n' :: indent ++ [closing]

/-- A text between quotes. -/
def quoted (raw : List Char) : List Char := '"' :: raw ++ ['"']

mutual

/-- A value over several lines; what stands inside another value is moved in by two blanks. -/
def render (indent : List Char) : Json → List Char
  | null => "null".toList
  | bool true => "true".toList
  | bool false => "false".toList
  | number numeral => numeral
  | text raw => quoted raw
  | array items => block '[' ']' indent (renderItems (' ' :: ' ' :: indent) items)
  | object fields => block '\x7b' '\x7d' indent (renderFields (' ' :: ' ' :: indent) fields)

/-- The items of an array. -/
def renderItems (indent : List Char) : List Json → List (List Char)
  | [] => []
  | v :: rest => render indent v :: renderItems indent rest

/-- The fields of an object. -/
def renderFields (indent : List Char) : List (List Char × Json) → List (List Char)
  | [] => []
  | f :: rest => renderField indent f :: renderFields indent rest

/-- A field of an object. -/
def renderField (indent : List Char) : List Char × Json → List Char
  | (name, v) => quoted name ++ ':' :: ' ' :: render indent v

end

end Json

end KeyBroker
