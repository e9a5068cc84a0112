import KeyBroker.Text.Printable

/-! # Quoted text

A quoted text stands between double quotes. Quote and backslash are escaped by a backslash, five
controls have short names, and any other character that does not show as itself is written as its
code point in hexadecimal between braces.
-/

namespace KeyBroker.Text

/-- The lower-case hexadecimal digits of a number, without leading zeros. -/
def hexDigits (n : Nat) : List Char := Nat.toDigits 16 n

/-- The octal digits of a number, without leading zeros. -/
def octal (n : Nat) : String := String.ofList (Nat.toDigits 8 n)

/-- How one character is written inside quotes. -/
def quoteChar (c : Char) : List Char :=
  if c = '"' then ['\\', '"']
  else if c = '\\' then ['\\', '\\']
  else if c = '\n' then ['\\', 'n']
  else if c = '\r' then ['\\', 'r']
  else if c = '\t' then ['\\', 't']
  else if c = '\x00' then ['\\', '0']
  else if isPrintable c then [c]
  else ['\\', 'u', '\x7b'] ++ hexDigits c.toNat ++ ['\x7d']

/-- A text between quotes. -/
def quote (text : String) : String :=
  String.ofList ('"' :: text.toList.flatMap quoteChar ++ ['"'])

end KeyBroker.Text
