import KeyBroker.Text.Scan

/-! # Texts in TOML

A text is written in one of four forms: between double quotes, where a backslash starts an escape,
or between apostrophes, where every character stands for itself; and either way between single
quotes on one line or between triple quotes on one line or more. The writer takes the first form
that needs no escape but for tabs, and escapes in double quotes where none does.
-/

namespace KeyBroker.Toml

/-! ### Characters -/

/-- The blanks within a line. -/
def isGap (c : Char) : Bool := c = ' ' || c = '\t'

/-- The characters that may stand for themselves: all but controls other than the tab. -/
def isPlain (c : Char) : Bool := c = '\t' || (0x20 ≤ c.toNat && c.toNat ≠ 0x7f)

/-- Takes a line break off the front. -/
def skipBreak? : List Char → Option (List Char)
  | '\n' :: r => some r
  | '\r' :: '\n' :: r => some r
  | _ => none

/-- A text without a line break at its start. -/
def dropBreak (cs : List Char) : List Char := (skipBreak? cs).getD cs

/-- Whether nothing but blanks stands before the next line break. -/
def breaksAfterGap (cs : List Char) : Bool := (skipBreak? (cs.dropWhile isGap)).isSome

/-! ### Escapes -/

/-- The character with the code point that hexadecimal digits name. -/
def hexChar? (digits : List Char) : Option Char := do
  let values ← digits.mapM Text.hexValue?
  let n := values.foldl (fun n d => 16 * n + d) 0
  if n.isValidChar then some (Char.ofNat n) else none

/-- The character that an escape of one letter stands for. -/
def shortEscape? (c : Char) : Option Char :=
  if c = 'b' then some '\x08'
  else if c = 't' then some '\t'
  else if c = 'n' then some '\n'
  else if c = 'f' then some '\x0c'
  else if c = 'r' then some '\r'
  else if c = '"' then some '"'
  else if c = '\\' then some '\\'
  else none

/-! ### Reading

Each reader starts behind the opening quotes and takes the text and its closing quotes off the
front; `done` is what was read, latest first.
-/

/-- Reads a text in double quotes. -/
def readBasic (done : List Char) : List Char → Option (List Char × List Char)
  | [] => none
  | '"' :: r => some (done.reverse, r)
  | '\\' :: 'u' :: a :: b :: c :: d :: r =>
    match hexChar? [a, b, c, d] with
    | some x => readBasic (x :: done) r
    | none => none
  | '\\' :: 'U' :: a :: b :: c :: d :: e :: f :: g :: h :: r =>
    match hexChar? [a, b, c, d, e, f, g, h] with
    | some x => readBasic (x :: done) r
    | none => none
  | '\\' :: c :: r =>
    match shortEscape? c with
    | some x => readBasic (x :: done) r
    | none => none
  | c :: r => if isPlain c && c ≠ '\\' then readBasic (c :: done) r else none

/-- Reads a text in triple double quotes. One quote or two may stand in the text, also right before
the closing ones. A backslash at the end of a line folds the line: it and all blanks and line breaks
behind it are left out; `folding` says that the reader is among those. -/
def readLongBasic (folding : Bool) (done : List Char) :
    List Char → Option (List Char × List Char)
  | [] => none
  | '"' :: '"' :: '"' :: '"' :: '"' :: r => some (('"' :: '"' :: done).reverse, r)
  | '"' :: '"' :: '"' :: '"' :: r => some (('"' :: done).reverse, r)
  | '"' :: '"' :: '"' :: r => some (done.reverse, r)
  | '"' :: r => readLongBasic false ('"' :: done) r
  | '\n' :: r => if folding then readLongBasic true done r else readLongBasic false ('\n' :: done) r
  | '\r' :: '\n' :: r =>
    if folding then readLongBasic true done r else readLongBasic false ('\n' :: done) r
  | '\\' :: 'u' :: a :: b :: c :: d :: r =>
    match hexChar? [a, b, c, d] with
    | some x => readLongBasic false (x :: done) r
    | none => none
  | '\\' :: 'U' :: a :: b :: c :: d :: e :: f :: g :: h :: r =>
    match hexChar? [a, b, c, d, e, f, g, h] with
    | some x => readLongBasic false (x :: done) r
    | none => none
  | '\\' :: c :: r =>
    match shortEscape? c with
    | some x => readLongBasic false (x :: done) r
    | none => if breaksAfterGap (c :: r) then readLongBasic true done r else none
  | c :: r =>
    if folding && isGap c then readLongBasic true done r
    else if isPlain c && c ≠ '\\' then readLongBasic false (c :: done) r
    else none

/-- Reads a text in apostrophes. -/
def readLiteral (done : List Char) : List Char → Option (List Char × List Char)
  | [] => none
  | '\x27' :: r => some (done.reverse, r)
  | c :: r => if isPlain c then readLiteral (c :: done) r else none

/-- Reads a text in triple apostrophes. One apostrophe or two may stand in the text, also right
before the closing ones. -/
def readLongLiteral (done : List Char) : List Char → Option (List Char × List Char)
  | [] => none
  | '\x27' :: '\x27' :: '\x27' :: '\x27' :: '\x27' :: r =>
    some (('\x27' :: '\x27' :: done).reverse, r)
  | '\x27' :: '\x27' :: '\x27' :: '\x27' :: r => some (('\x27' :: done).reverse, r)
  | '\x27' :: '\x27' :: '\x27' :: r => some (done.reverse, r)
  | '\x27' :: r => readLongLiteral ('\x27' :: done) r
  | '\n' :: r => readLongLiteral ('\n' :: done) r
  | '\r' :: '\n' :: r => readLongLiteral ('\n' :: done) r
  | c :: r => if isPlain c then readLongLiteral (c :: done) r else none

/-- Reads a text on one line. -/
def readShortText : List Char → Option (List Char × List Char)
  | '"' :: r => readBasic [] r
  | '\x27' :: r => readLiteral [] r
  | _ => none

/-- Reads a text of any form. A line break right behind the opening triple quotes does not count. -/
def readText : List Char → Option (List Char × List Char)
  | '"' :: '"' :: '"' :: r => readLongBasic false [] (dropBreak r)
  | '\x27' :: '\x27' :: '\x27' :: r => readLongLiteral [] (dropBreak r)
  | cs => readShortText cs

/-! ### Writing -/

/-- Whether a control other than tab and line feed stands in a text. -/
def hasControl (cs : List Char) : Bool := cs.any fun c => !isPlain c && c ≠ '\n'

/-- Whether more than `limit` of the character `q` stand in a row, of which `run` came before. -/
def crowded (q : Char) (limit : Nat) (run : Nat) : List Char → Bool
  | [] => false
  | c :: r => if c = q then limit < run + 1 || crowded q limit (run + 1) r else crowded q limit 0 r

/-- The escape of a character, if it has one; a line feed has none in a text of many lines. -/
def escape? (long : Bool) (c : Char) : Option (List Char) :=
  if c = '\x08' then some ['\\', 'b']
  else if c = '\t' then some ['\\', 't']
  else if c = '\n' then if long then none else some ['\\', 'n']
  else if c = '\x0c' then some ['\\', 'f']
  else if c = '\r' then some ['\\', 'r']
  else if c = '\\' then some ['\\', '\\']
  else if isPlain c then none
  else some (['\\', 'u', '0', '0'] ++ (Nat.toDigits 16 (0x100 + c.toNat)).tail.map Char.toUpper)

/-- A text with its escapes. At most `limit` double quotes in a row stand for themselves, of which
`run` came before. -/
def escaped (long : Bool) (limit : Nat) (run : Nat) : List Char → List Char
  | [] => []
  | c :: r =>
    if c = '"' then
      if run < limit then '"' :: escaped long limit (run + 1) r
      else '\\' :: '"' :: escaped long limit 0 r
    else
      match escape? long c with
      | some e => e ++ escaped long limit 0 r
      | none => c :: escaped long limit 0 r

/-- A text in double quotes. -/
def writeBasic (cs : List Char) : List Char := '"' :: escaped false 0 0 cs ++ ['"']

/-- A line break if the text is of many lines: it keeps the first line with the others. -/
def leadingBreak (cs : List Char) : List Char := if cs.contains '\n' then ['\n'] else []

/-- A text in triple double quotes. -/
def writeLongBasic (cs : List Char) : List Char :=
  ['"', '"', '"'] ++ leadingBreak cs ++ escaped true 2 0 cs ++ ['"', '"', '"']

/-- A text in apostrophes. -/
def writeLiteral (cs : List Char) : List Char := '\x27' :: cs ++ ['\x27']

/-- A text in triple apostrophes. -/
def writeLongLiteral (cs : List Char) : List Char :=
  ['\x27', '\x27', '\x27'] ++ leadingBreak cs ++ cs ++ ['\x27', '\x27', '\x27']

/-- A text in the first form that suits it. -/
def writeText (cs : List Char) : List Char :=
  let control := hasControl cs
  let long := cs.contains '\n'
  let backslash := cs.contains '\\'
  if !control && !backslash && !cs.contains '"' && !long then writeBasic cs
  else if !control && !cs.contains '\x27' && !long then writeLiteral cs
  else if !control && !backslash && !crowded '"' 2 0 cs then writeLongBasic cs
  else if !control && !crowded '\x27' 2 0 cs then writeLongLiteral cs
  else if long then writeLongBasic cs
  else writeBasic cs

end KeyBroker.Toml
