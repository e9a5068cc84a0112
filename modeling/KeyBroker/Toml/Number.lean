import KeyBroker.Text.Scan

/-! # Numbers and dates in TOML

Integers are decimal, or hexadecimal, octal or binary behind a mark, and fit 64 bits with a sign.
Single underscores may stand between digits. Of decimals, dates and times only the form is read,
and that the number or the day exists.
-/

namespace KeyBroker.Toml

/-! ### Digits -/

/-- Whether a character is a digit of a base up to sixteen. -/
def isDigitOf (base : Nat) (c : Char) : Bool :=
  if c.isDigit then c.toNat - 48 < base
  else base = 16 && (('a' ≤ c && c ≤ 'f') || ('A' ≤ c && c ≤ 'F'))

/-- The value of a digit. -/
def digitOf (c : Char) : Nat :=
  if c.isDigit then c.toNat - 48 else if 'a' ≤ c then c.toNat - 87 else c.toNat - 55

/-- The number that digits stand for. -/
def numberOf (base : Nat) (digits : List Char) : Nat :=
  digits.foldl (fun n c => base * n + digitOf c) 0

/-- Takes digits off the front; an underscore counts if a digit follows it. -/
def readRun (base : Nat) : List Char → List Char × List Char
  | '_' :: c :: r =>
    if isDigitOf base c then
      let (digits, r) := readRun base r
      (c :: digits, r)
    else ([], '_' :: c :: r)
  | c :: r =>
    if isDigitOf base c then
      let (digits, r) := readRun base r
      (c :: digits, r)
    else ([], c :: r)
  | [] => ([], [])

/-- Takes one digit or more off the front. -/
def readDigits (base : Nat) : List Char → Option (List Char × List Char)
  | c :: r =>
    if isDigitOf base c then
      let (digits, r) := readRun base r
      some (c :: digits, r)
    else none
  | [] => none

/-- Takes a sign off the front, if there is one, and tells whether it is a minus. -/
def readSign : List Char → Bool × List Char
  | '+' :: r => (false, r)
  | '-' :: r => (true, r)
  | cs => (false, cs)

/-- Takes the digits of a decimal integer off the front: zero, or digits that do not start with
zero. -/
def readWhole : List Char → Option (List Char × List Char)
  | '0' :: r => some (['0'], r)
  | cs => readDigits 10 cs

/-! ### Integers -/

/-- The integers of 64 bits. -/
def fits (n : Int) : Bool := -0x8000000000000000 ≤ n && n < 0x8000000000000000

/-- Takes the digits of a base off the front. -/
def readBased (base : Nat) (cs : List Char) : Option (Int × List Char) :=
  match readDigits base cs with
  | some (digits, r) =>
    let n : Int := numberOf base digits
    if fits n then some (n, r) else none
  | none => none

/-- Takes an integer off the front. -/
def readInteger : List Char → Option (Int × List Char)
  | '0' :: 'x' :: r => readBased 16 r
  | '0' :: 'o' :: r => readBased 8 r
  | '0' :: 'b' :: r => readBased 2 r
  | cs =>
    let (negative, cs) := readSign cs
    match readWhole cs with
    | some (digits, r) =>
      let n : Int := numberOf 10 digits
      let n := if negative then -n else n
      if fits n then some (n, r) else none
    | none => none

/-! ### Decimals -/

/-- The least number that rounds beyond every double: half a unit above the greatest one. -/
def decimalBound : Nat := (1 <<< 1024) - (1 <<< 970)

/-- Whether `m` times ten to the power `e` reaches the bound. Exponents far from the size of `m`,
which has `count` digits, decide at once. -/
def tooLarge (m count : Nat) (e : Int) : Bool :=
  if m = 0 then false
  else if 400 < e then true
  else if 0 ≤ e then decimalBound ≤ m * Nat.pow 10 e.toNat
  else if e + count < 300 then false
  else decimalBound * Nat.pow 10 (-e).toNat ≤ m

/-- Takes the fraction of a decimal off the front. -/
def readFraction : List Char → Option (List Char × List Char)
  | '.' :: r => readDigits 10 r
  | _ => none

/-- Takes the exponent of a decimal off the front. -/
def readExponent : List Char → Option (Int × List Char)
  | c :: r =>
    if c = 'e' || c = 'E' then
      let (negative, r) := readSign r
      match readDigits 10 r with
      | some (digits, r) =>
        let n : Int := numberOf 10 digits
        some (if negative then -n else n, r)
      | none => none
    else none
  | [] => none

/-- Takes an infinity or no number off the front. -/
def readSpecial (cs : List Char) : Option (List Char) :=
  Text.skipWord? "inf".toList cs <|> Text.skipWord? "nan".toList cs

/-- Takes a decimal off the front: an integer with a fraction, an exponent or both. One beyond every
double is refused, unless it is negative. -/
def readDecimal (cs : List Char) : Option (List Char) :=
  let (negative, cs) := readSign cs
  match readWhole cs with
  | none => readSpecial cs
  | some (whole, r) =>
    let finish (fraction : List Char) (e : Int) (r : List Char) : Option (List Char) :=
      let digits := whole ++ fraction
      if !negative && tooLarge (numberOf 10 digits) digits.length (e - fraction.length) then none
      else some r
    match readFraction r with
    | some (fraction, r) =>
      match readExponent r with
      | some (e, r) => finish fraction e r
      | none => finish fraction 0 r
    | none =>
      match readExponent r with
      | some (e, r) => finish [] e r
      | none => none

/-! ### Dates and times -/

/-- Takes a number of `count` digits off the front. -/
def readFixed (count : Nat) (cs : List Char) : Option (Nat × List Char) :=
  let digits := cs.take count
  if digits.length = count && digits.all Char.isDigit then
    some (numberOf 10 digits, cs.drop count)
  else none

/-- Takes a number of two digits from `low` to `high` off the front. -/
def readBetween (low high : Nat) (cs : List Char) : Option (Nat × List Char) :=
  match readFixed 2 cs with
  | some (n, r) => if low ≤ n && n ≤ high then some (n, r) else none
  | none => none

/-- The number of days in a month. -/
def daysIn (year month : Nat) : Nat :=
  if month = 2 then
    if year % 4 = 0 && (year % 100 ≠ 0 || year % 400 = 0) then 29 else 28
  else if month = 4 || month = 6 || month = 9 || month = 11 then 30
  else 31

/-- Takes a date off the front. -/
def readDate (cs : List Char) : Option (List Char) := do
  let (year, cs) ← readFixed 4 cs
  let cs ← Text.skipWord? ['-'] cs
  let (month, cs) ← readBetween 1 12 cs
  let cs ← Text.skipWord? ['-'] cs
  let (_, cs) ← readBetween 1 (daysIn year month) cs
  some cs

/-- Takes the fraction of a second off the front, if there is one. -/
def skipFraction (cs : List Char) : List Char :=
  match cs with
  | '.' :: c :: r => if c.isDigit then r.dropWhile Char.isDigit else cs
  | _ => cs

/-- Takes a time of day off the front. A minute may have a leap second. -/
def readTime (cs : List Char) : Option (List Char) := do
  let (_, cs) ← readBetween 0 23 cs
  let cs ← Text.skipWord? [':'] cs
  let (_, cs) ← readBetween 0 59 cs
  let cs ← Text.skipWord? [':'] cs
  let (_, cs) ← readBetween 0 60 cs
  some (skipFraction cs)

/-- Takes a distance from universal time off the front. -/
def readOffset : List Char → Option (List Char)
  | c :: r =>
    if c = 'Z' || c = 'z' then some r
    else if c = '+' || c = '-' then do
      let (_, r) ← readBetween 0 23 r
      let r ← Text.skipWord? [':'] r
      let (_, r) ← readBetween 0 59 r
      some r
    else none
  | [] => none

/-- Takes the time that belongs to a date off the front, with its offset if there is one. -/
def readTimeOfDate : List Char → Option (List Char)
  | c :: r =>
    if c = 'T' || c = 't' || c = ' ' then
      match readTime r with
      | some r => some ((readOffset r).getD r)
      | none => none
    else none
  | [] => none

/-- Takes a date, a time or both off the front. -/
def readMoment (cs : List Char) : Option (List Char) :=
  match readDate cs with
  | some r => some ((readTimeOfDate r).getD r)
  | none => readTime cs

end KeyBroker.Toml
