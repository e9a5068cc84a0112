import KeyBroker.Json.Basic

/-! # Reading JSON

The reader takes a value off the front of a text and leaves the rest. It goes as deep as the text
does; the number of steps is bounded by the length of the text.
-/

namespace KeyBroker.Json

/-- The blanks of JSON. -/
def isGap (c : Char) : Bool := c = ' ' || c = '\n' || c = '\t' || c = '\r'

/-- A text without the blanks at its start. -/
def skipGap (cs : List Char) : List Char := cs.dropWhile isGap

/-- Takes a text off the front, behind its opening quote; `done` is what was read, latest first.
Escapes must have the right form, whatever they stand for, and controls must be escaped. -/
def readText (done : List Char) : List Char → Option (List Char × List Char)
  | [] => none
  | '"' :: r => some (done.reverse, r)
  | '\\' :: 'u' :: a :: b :: c :: d :: r =>
    if (hexUnit? a b c d).isSome then readText (d :: c :: b :: a :: 'u' :: '\\' :: done) r else none
  | '\\' :: c :: r => if (shortEscape? c).isSome then readText (c :: '\\' :: done) r else none
  | c :: r => if c.toNat < 0x20 ∨ c = '\\' then none else readText (c :: done) r

/-- Takes one digit or more off the front. -/
def readDigits (cs : List Char) : Option (List Char × List Char) :=
  let digits := cs.takeWhile Char.isDigit
  if digits.isEmpty then none else some (digits, cs.dropWhile Char.isDigit)

/-- Takes the whole part of a number off the front: zero, or digits that do not start with zero. -/
def readWhole (cs : List Char) : Option (List Char × List Char) :=
  match cs with
  | '0' :: r =>
    match r with
    | c :: _ => if c.isDigit then none else some (['0'], r)
    | [] => some (['0'], r)
  | cs => readDigits cs

/-- Takes the fraction of a number off the front, if there is one. -/
def readFraction (cs : List Char) : Option (List Char × List Char) :=
  match cs with
  | '.' :: r => (readDigits r).map fun (digits, r) => ('.' :: digits, r)
  | cs => some ([], cs)

/-- Takes the sign of an exponent off the front, if there is one. -/
def readSign (cs : List Char) : List Char × List Char :=
  match cs with
  | '+' :: r => (['+'], r)
  | '-' :: r => (['-'], r)
  | cs => ([], cs)

/-- Takes the exponent of a number off the front, if there is one. -/
def readExponent (cs : List Char) : Option (List Char × List Char) :=
  match cs with
  | c :: r =>
    if c = 'e' ∨ c = 'E' then
      let (sign, r) := readSign r
      (readDigits r).map fun (digits, r) => (c :: sign ++ digits, r)
    else some ([], cs)
  | [] => some ([], cs)

/-- Takes a number off the front. -/
def readNumber (cs : List Char) : Option (List Char × List Char) := do
  let (sign, cs) := match cs with
    | '-' :: r => (['-'], r)
    | cs => ([], cs)
  let (whole, cs) ← readWhole cs
  let (fraction, cs) ← readFraction cs
  let (exponent, cs) ← readExponent cs
  some (sign ++ whole ++ fraction ++ exponent, cs)

mutual

/-- Takes a value off the front, in at most `steps` steps. -/
def readValue : (steps : Nat) → List Char → Option (Json × List Char)
  | 0, _ => none
  | steps + 1, cs =>
    match skipGap cs with
    | '"' :: r => (readText [] r).map fun (raw, r) => (text raw, r)
    | '[' :: r =>
      match skipGap r with
      | ']' :: r => some (array [], r)
      | r => (readItems steps r).map fun (items, r) => (array items, r)
    | '\x7b' :: r =>
      match skipGap r with
      | '\x7d' :: r => some (object [], r)
      | r => (readFields steps r).map fun (fields, r) => (object fields, r)
    | 'n' :: r => (Text.skipWord? "ull".toList r).map fun r => (null, r)
    | 't' :: r => (Text.skipWord? "rue".toList r).map fun r => (bool true, r)
    | 'f' :: r => (Text.skipWord? "alse".toList r).map fun r => (bool false, r)
    | cs => (readNumber cs).map fun (numeral, r) => (number numeral, r)

/-- Takes the items of an array and its closing bracket off the front. -/
def readItems : (steps : Nat) → List Char → Option (List Json × List Char)
  | 0, _ => none
  | steps + 1, cs =>
    match readValue steps cs with
    | none => none
    | some (item, r) =>
      match skipGap r with
      | ',' :: r => (readItems steps r).map fun (items, r) => (item :: items, r)
      | ']' :: r => some ([item], r)
      | _ => none

/-- Takes the fields of an object and its closing brace off the front. -/
def readFields : (steps : Nat) → List Char → Option (List (List Char × Json) × List Char)
  | 0, _ => none
  | steps + 1, cs =>
    match skipGap cs with
    | '"' :: r =>
      match readText [] r with
      | none => none
      | some (name, r) =>
        match skipGap r with
        | ':' :: r =>
          match readValue steps r with
          | none => none
          | some (v, r) =>
            match skipGap r with
            | ',' :: r => (readFields steps r).map fun (fields, r) => ((name, v) :: fields, r)
            | '\x7d' :: r => some ([(name, v)], r)
            | _ => none
        | _ => none
    | _ => none

end

/-- The value that a text holds, and nothing else. -/
def read? (cs : List Char) : Option Json :=
  match readValue (2 * cs.length + 1) cs with
  | some (v, r) => if (skipGap r).isEmpty then some v else none
  | none => none

end KeyBroker.Json
